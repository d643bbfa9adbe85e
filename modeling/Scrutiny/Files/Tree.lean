import Scrutiny.Path
import Scrutiny.Text.Utf8

/-!
# File trees

A file tree holds files and folders under names, and a current folder where paths that are
not absolute start.  Paths are followed step by step: every part but the last must lead to a
folder that exists, and two dots lead back to the folder above.

Each operation gives its result or the cause of its failure.  Operations that change the tree
are actions on it; what a failed action has changed before its failure stays.
-/

namespace Scrutiny

/-- Why an operation on files failed. -/
inductive FileError where
  /-- Something on the way does not exist. -/
  | notFound
  /-- There is something already. -/
  | occupied
  /-- A file stands where a folder is needed. -/
  | notFolder
  /-- A folder stands where a file is needed. -/
  | isFolder
  /-- A name has more bytes than a name may have. -/
  | longName
  /-- The bytes of a file are no text. -/
  | notText
  deriving DecidableEq, Repr, Inhabited

/-- The wording of an error. -/
def FileError.message : FileError → String
  | .notFound => "No such file or directory (os error 2)"
  | .occupied => "File exists (os error 17)"
  | .notFolder => "Not a directory (os error 20)"
  | .isFolder => "Is a directory (os error 21)"
  | .longName => "File name too long (os error 36)"
  | .notText => "stream did not contain valid UTF-8"

/-- A file, or a folder with its entries in the order of their names. -/
inductive FileNode where
  | file (bytes : List UInt8)
  | folder (entries : List (String × FileNode))
  deriving Repr, Inhabited

namespace FileNode

/-- The node under a name. -/
def child? (name : String) (entries : List (String × FileNode)) : Option FileNode :=
  (entries.find? (·.1 == name)).map (·.2)

/-- The entries with the one under a name changed, added or removed. -/
def alterEntry (name : String) (change : Option FileNode → Option FileNode) :
    List (String × FileNode) → List (String × FileNode)
  | [] => ((change none).map (name, ·)).toList
  | (key, node) :: rest =>
    if name == key then ((change (some node)).map (key, ·)).toList ++ rest
    else if name < key then ((change none).map (name, ·)).toList ++ (key, node) :: rest
    else (key, node) :: alterEntry name change rest

/-- The node at the end of a list of names. -/
def at? : List String → FileNode → Option FileNode
  | [], node => some node
  | name :: rest, .folder entries => (child? name entries).bind (at? rest)
  | _ :: _, .file _ => none

/-- The node with what is at the end of a list of names changed, added or removed.  The folders
on the way must exist; without a name nothing changes. -/
def alter (change : Option FileNode → Option FileNode) : List String → FileNode → FileNode
  | [], node => node
  | [name], .folder entries => .folder (alterEntry name change entries)
  | name :: rest, .folder entries =>
    .folder (alterEntry name (fun child => child.map (alter change rest)) entries)
  | _ :: _, .file bytes => .file bytes

mutual

/-- The files below a node with the names that lead to them. -/
def files : FileNode → List (List String × List UInt8)
  | .file bytes => [([], bytes)]
  | .folder entries => filesOf entries

/-- The files below some entries with the names that lead to them. -/
def filesOf : List (String × FileNode) → List (List String × List UInt8)
  | [] => []
  | (name, node) :: rest =>
    (files node).map (fun (names, bytes) => (name :: names, bytes)) ++ filesOf rest

end

end FileNode

/-- A file tree. -/
structure FileTree where
  /-- The folder at the root. -/
  root : FileNode
  /-- The names that lead to the current folder. -/
  here : List String
  deriving Repr, Inhabited

/-- An action on a file tree. -/
abbrev FileAction (α : Type) := ExceptT FileError (StateM FileTree) α

namespace FileTree

/-- A tree without any files, with the root as its current folder. -/
def empty : FileTree := { root := .folder [], here := [] }

/-- The largest number of bytes of a name. -/
def maxName : Nat := 255

/-- The node at the end of a list of names that starts at the root. -/
def at? (tree : FileTree) (names : List String) : Option FileNode :=
  tree.root.at? names

/-- Checks that some names lead to a folder. -/
def enter (tree : FileTree) (names : List String) : Except FileError Unit :=
  match tree.at? names with
  | some (.folder _) => .ok ()
  | some (.file _) => .error .notFolder
  | none => .error .notFound

/-- Follows the parts of a path from a folder on. -/
def follow (tree : FileTree) (names : List String) : List String → Except FileError (List String)
  | [] => .ok names
  | piece :: rest =>
    match tree.enter names with
    | .error e => .error e
    | .ok () =>
      if piece == "" || piece == "." then follow tree names rest
      else if piece == ".." then follow tree names.dropLast rest
      else if maxName < piece.utf8ByteSize then .error .longName
      else follow tree (names ++ [piece]) rest

/-- The names that a path leads to.  The last of them need not exist. -/
def resolve (tree : FileTree) (path : String) : Except FileError (List String) :=
  if path == "" then .error .notFound
  else tree.follow (if Path.isAbsolute path then [] else tree.here) (Path.pieces path)

/-- What a path leads to. -/
def find (tree : FileTree) (path : String) : Except FileError FileNode :=
  match tree.resolve path with
  | .error e => .error e
  | .ok names =>
    match tree.at? names with
    | some node => .ok node
    | none => .error .notFound

/-- The absolute path of something that exists, without dots. -/
def canonical (tree : FileTree) (path : String) : Except FileError String :=
  match tree.find path with
  | .error e => .error e
  | .ok _ => (tree.resolve path).map fun names => "/" ++ "/".intercalate names

/-- Whether a path leads to a folder. -/
def isFolder (tree : FileTree) (path : String) : Bool :=
  match tree.find path with
  | .ok (.folder _) => true
  | _ => false

/-- Whether a path leads to something. -/
def occurs (tree : FileTree) (path : String) : Except FileError Bool :=
  match tree.find path with
  | .ok _ => .ok true
  | .error .notFound => .ok false
  | .error e => .error e

/-- The bytes of a file. -/
def read (tree : FileTree) (path : String) : Except FileError (List UInt8) :=
  match tree.find path with
  | .ok (.file bytes) => .ok bytes
  | .ok (.folder _) => .error .isFolder
  | .error e => .error e

/-- The text of a file. -/
def readText (tree : FileTree) (path : String) : Except FileError String :=
  match tree.read path with
  | .error e => .error e
  | .ok bytes =>
    match Text.text? bytes with
    | some text => .ok text
    | none => .error .notText

/-- The tree with what is under some names changed, added or removed. -/
def alter (tree : FileTree) (names : List String) (change : Option FileNode → Option FileNode) :
    FileTree :=
  { tree with root := tree.root.alter change names }

/-- The paths of the files below a folder, seen from it, in the order of their characters. -/
def listing (tree : FileTree) (path : String) : List String :=
  match tree.find path with
  | .ok (.folder entries) =>
    ((FileNode.filesOf entries).map fun (names, _) => "/".intercalate names).mergeSort (· ≤ ·)
  | _ => []

end FileTree

namespace FileAction

/-- An action that only looks at the tree. -/
def look {α : Type} (view : FileTree → Except FileError α) : FileAction α :=
  fun tree => (view tree, tree)

/-- Changes what is under some names. -/
def change (names : List String) (change : Option FileNode → Option FileNode) : FileAction Unit :=
  fun tree => (.ok (), tree.alter names change)

/-- Writes a file, which may exist. -/
def write (path : String) (bytes : List UInt8) : FileAction Unit := do
  let names ← look (·.resolve path)
  match (← get).at? names with
  | some (.folder _) => throw .isFolder
  | _ => change names fun _ => some (.file bytes)

/-- Makes sure that a file exists. -/
def touch (path : String) : FileAction Unit := do
  let names ← look (·.resolve path)
  match (← get).at? names with
  | some (.folder _) => throw .isFolder
  | some (.file _) => pure ()
  | none => change names fun _ => some (.file [])

/-- Removes a file. -/
def remove (path : String) : FileAction Unit := do
  let names ← look (·.resolve path)
  match (← get).at? names with
  | some (.folder _) => throw .isFolder
  | some (.file _) => change names fun _ => none
  | none => throw .notFound

/-- Gives a file another path, and replaces a file there. -/
def move (source target : String) : FileAction Unit := do
  let start ← look (·.resolve source)
  match (← get).at? start with
  | none => throw .notFound
  | some (.folder _) => throw .isFolder
  | some (.file bytes) =>
    if target.toList.getLast? == some '/' then throw .notFolder
    let goal ← look (·.resolve target)
    match (← get).at? goal with
    | some (.folder _) => throw .isFolder
    | _ =>
      change start fun _ => none
      change goal fun _ => some (.file bytes)

/-- Makes the folders that some components lead to, from a folder that exists. -/
def makeFolders (names : List String) : List Path.Component → FileAction Unit
  | [] => pure ()
  | .root :: rest => makeFolders [] rest
  | .here :: rest => makeFolders names rest
  | .up :: rest => makeFolders names.dropLast rest
  | .name name :: rest => do
    if FileTree.maxName < name.utf8ByteSize then throw .longName
    match (← get).at? (names ++ [name]) with
    | some (.folder _) => makeFolders (names ++ [name]) rest
    | some (.file _) => throw (if rest.isEmpty then .occupied else .notFolder)
    | none =>
      change (names ++ [name]) fun _ => some (.folder [])
      makeFolders (names ++ [name]) rest

/-- Makes sure that a folder exists, and all folders on the way to it. -/
def createFolders (path : String) : FileAction Unit := do
  makeFolders (← get).here (Path.components path)

/-- Writes a file, and makes the folders on the way to it. -/
def writeWithFolders (path : String) (bytes : List UInt8) : FileAction Unit := do
  match Path.parent? path with
  | some folder => createFolders folder
  | none => pure ()
  write path bytes

/-- Removes a file, or a folder with all that is below it. -/
def removeAll (path : String) : FileAction Unit := do
  let names ← look (·.resolve path)
  match (← get).at? names with
  | none => throw .notFound
  | some _ => change names fun _ => none

/-- Removes a file if it is there, and tells whether it was. -/
def removeIfThere (path : String) : FileAction Bool :=
  tryCatch (do
    remove path
    pure true) fun e => if e == .notFound then pure false else throw e

end FileAction

end Scrutiny
