import Scrutiny.Files.Tree
import Scrutiny.Json.Writer

/-!
# Writing files as a whole

A file is written beside its place and moved there, so that it has its old bytes or its new ones,
wherever the write stops.
-/

namespace Scrutiny

/-!
## Atomic writes

A file is written under another name beside its own, and then moved: whoever reads it finds
the old content or the new one.
-/

namespace Path

/-- What is added to the name of a file while it is written. -/
def temporaryEnding : String := ".tmp"

/-- The path under which a file is written before it is moved. -/
def temporary (path : String) : String :=
  withFileName path ((fileName? path).getD "" ++ temporaryEnding)

end Path

namespace FileAction

/-- Runs an action; if it fails, a file is removed before the failure is passed on. -/
def orRemove (path : String) (action : FileAction Unit) : FileAction Unit :=
  tryCatch action fun e => do
    tryCatch (remove path) fun _ => pure ()
    throw e

/-- Writes a file as a whole or not at all; folders on the way to it are made. -/
def writeAtomic (path : String) (bytes : List UInt8) : FileAction Unit := do
  match Path.parent? path with
  | some folder => if folder != "" then createFolders folder
  | none => pure ()
  orRemove (Path.temporary path) (write (Path.temporary path) bytes)
  orRemove (Path.temporary path) (move (Path.temporary path) path)

/-- Writes a JSON value atomically. -/
def writeJson (path : String) (value : Json) : FileAction Unit :=
  writeAtomic path (Text.bytesOf value.pretty)

end FileAction

/-!
## Interrupted writes

A file is written as a whole by some calls on the file system.  Each of them can fail for reasons
that do not lie in the files, and may have done a part of its work by then; and whoever writes the
file can be stopped before, between and after the calls.
-/

/-- A call on the file system. -/
inductive FileCall where
  /-- Makes a folder and those on the way to it. -/
  | makeFolders (path : String)
  /-- Writes a file. -/
  | write (path : String) (bytes : List UInt8)
  /-- Gives a file another path. -/
  | move (source target : String)

namespace FileCall

/-- Carries out a call. -/
def perform : FileCall → FileAction Unit
  | .makeFolders path => FileAction.createFolders path
  | .write path bytes => FileAction.write path bytes
  | .move source target => FileAction.move source target

/-- Carries out calls one after the other. -/
def performAll : List FileCall → FileAction Unit
  | [] => pure ()
  | call :: rest => do
    call.perform
    performAll rest

/-- The calls that write a file as a whole. -/
def ofWrite (path : String) (bytes : List UInt8) : List FileCall :=
  let folders := match Path.parent? path with
    | some folder => if folder != "" then [.makeFolders folder] else []
    | none => []
  folders ++ [.write (Path.temporary path) bytes, .move (Path.temporary path) path]

/-- What a call that was not carried out to its end may have done. -/
inductive Leaves : FileCall → FileTree → FileTree → Prop where
  /-- It has done nothing. -/
  | nothing (call : FileCall) (tree : FileTree) : Leaves call tree tree
  /-- It has made some of the folders. -/
  | folders (path : String) (count : Nat) (tree : FileTree) :
    Leaves (.makeFolders path) tree
      (FileAction.makeFolders tree.here ((Path.components path).take count) tree).2
  /-- It has written some of the bytes. -/
  | bytes (path : String) (bytes : List UInt8) (count : Nat) (tree : FileTree) :
    Leaves (.write path bytes) tree (FileAction.write path (bytes.take count) tree).2

/-- What calls that write a file leave behind if they are interrupted. -/
inductive Interrupted (temporary : String) : List FileCall → FileTree → FileTree → Prop where
  /-- Whoever writes the file was stopped between two calls. -/
  | stopped (calls : List FileCall) (tree : FileTree) : Interrupted temporary calls tree tree
  /-- A call was not carried out to its end. -/
  | within {call : FileCall} {tree next : FileTree} (h : call.Leaves tree next)
    (rest : List FileCall) : Interrupted temporary (call :: rest) tree next
  /-- A call has failed, and the temporary file was removed if that was possible. -/
  | cleaned {call : FileCall} {tree middle : FileTree} (h : call.Leaves tree middle)
    (rest : List FileCall) :
    Interrupted temporary (call :: rest) tree (FileAction.remove temporary middle).2
  /-- A call was carried out, and the calls after it were interrupted. -/
  | later {call : FileCall} {rest : List FileCall} {tree middle next : FileTree}
    (h : call.perform tree = (.ok (), middle)) (hrest : Interrupted temporary rest middle next) :
    Interrupted temporary (call :: rest) tree next

end FileCall

/-- What an atomic write of a file leaves behind if it is interrupted. -/
def FileTree.WriteInterrupted (path : String) (bytes : List UInt8) (tree next : FileTree) : Prop :=
  FileCall.Interrupted (Path.temporary path) (FileCall.ofWrite path bytes) tree next

end Scrutiny
