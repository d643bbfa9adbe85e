/-!
# Concurrent writers of one file

Several writers replace the same file at the same time.  Each of them makes the temporary file
beside it or empties it, fills it, and moves it to its place; all of them use the same temporary
name.  A file that is open stays the same file when it is moved: what is written to it later is
written to the file under its new name.
-/

namespace Scrutiny

/-- The file that is replaced and the temporary one, as a folder knows them, and what all files
hold. -/
structure SharedFile where
  /-- The number of the file that is replaced, if it is there. -/
  target : Option Nat
  /-- The number of the temporary file, if it is there. -/
  temporary : Option Nat
  /-- The bytes of each file. -/
  contents : List (List UInt8)
  deriving DecidableEq, Repr, Inhabited

/-- How far a writer has come. -/
inductive WriterPhase where
  /-- It has not begun. -/
  | idle
  /-- It has opened the temporary file with this number, which was emptied. -/
  | opened (file : Nat)
  /-- It has written its bytes. -/
  | filled
  /-- It has moved the temporary file to its place. -/
  | moved
  /-- The temporary file was not there any more; it is about to clean up. -/
  | failed
  /-- It has cleaned up after a failure. -/
  | cleaned
  deriving DecidableEq, Repr, Inhabited

/-- Writers of one file. -/
structure Race where
  /-- The file. -/
  shared : SharedFile
  /-- The writers, each with its bytes and how far it has come. -/
  writers : List (List UInt8 × WriterPhase)
  deriving DecidableEq, Repr, Inhabited

namespace SharedFile

/-- A file with some bytes, or no file. -/
def ofBytes? : Option (List UInt8) → SharedFile
  | some bytes => { target := some 0, temporary := none, contents := [bytes] }
  | none => { target := none, temporary := none, contents := [] }

/-- What a reader finds. -/
def read? (shared : SharedFile) : Option (List UInt8) :=
  shared.target.bind fun file => shared.contents[file]?

/-- Makes the temporary file, or empties it, and opens it. -/
def openTemporary (shared : SharedFile) : Nat × SharedFile :=
  match shared.temporary with
  | some file => (file, { shared with contents := shared.contents.set file [] })
  | none =>
    let file := shared.contents.length
    (file, { shared with temporary := some file, contents := shared.contents ++ [[]] })

/-- Writes bytes from the start of an open file on. -/
def fill (shared : SharedFile) (file : Nat) (bytes : List UInt8) : SharedFile :=
  { shared with contents := shared.contents.modify file fun old => bytes ++ old.drop bytes.length }

/-- Moves the temporary file to its place; none if it is not there. -/
def move? (shared : SharedFile) : Option SharedFile :=
  shared.temporary.map fun file => { shared with target := some file, temporary := none }

/-- Removes the temporary file if it is there. -/
def clean (shared : SharedFile) : SharedFile :=
  { shared with temporary := none }

end SharedFile

namespace Race

/-- Writers that have not begun. -/
def ofWriters (before : Option (List UInt8)) (bytes : List (List UInt8)) : Race :=
  { shared := .ofBytes? before, writers := bytes.map (·, .idle) }

/-- The race with a writer in another phase. -/
def moved (race : Race) (i : Nat) (shared : SharedFile) (phase : WriterPhase) : Race :=
  { shared, writers := race.writers.modify i fun (bytes, _) => (bytes, phase) }

/-- The race after the next step of a writer; none if it has come to its end. -/
def step? (race : Race) (i : Nat) : Option Race :=
  match race.writers[i]? with
  | some (_, .idle) =>
    let (file, opened) := race.shared.openTemporary
    some (race.moved i opened (.opened file))
  | some (bytes, .opened file) => some (race.moved i (race.shared.fill file bytes) .filled)
  | some (_, .filled) =>
    match race.shared.move? with
    | some shared => some (race.moved i shared .moved)
    | none => some (race.moved i race.shared .failed)
  | some (_, .failed) => some (race.moved i race.shared.clean .cleaned)
  | _ => none

/-- The race after steps of the given writers; none if one of them has come to its end. -/
def run? (race : Race) : List Nat → Option Race
  | [] => some race
  | i :: rest => (race.step? i).bind (run? · rest)

end Race

end Scrutiny
