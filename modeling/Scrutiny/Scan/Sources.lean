import Scrutiny.Files.Tree
import Scrutiny.Language
import Scrutiny.Scan.Rules

/-!
# The source files of a project

The files below a folder that are worth an audit: those with the extension of a language that
is understood and with at most a mebibyte, apart from hidden files, from what a version control
system passes over, from folders that hold no code of the project, and from what the
project's own ignore list names.  They come in the order of their paths.
-/

namespace Scrutiny

/-- The language of a file, by its extension. -/
def Language.ofPath (path : String) : Language :=
  match Path.extension? path with
  | some extension => .ofExtension extension
  | none => .unknown

namespace Sources

/-- The folders that hold no code of the project. -/
def excludedFolders : List String :=
  ["__pycache__", ".venv", "venv", ".git", "node_modules", "dist", "build", ".next"]

/-- The largest number of bytes of a file. -/
def maxBytes : Nat := 1048576

/-- The rules that one folder adds, from three kinds of files. -/
structure Layer where
  /-- The names that lead to the folder. -/
  folder : List String
  /-- Rules for all tools. -/
  general : List GitRule
  /-- Rules of the version control system. -/
  versioned : List GitRule
  /-- Rules of one working copy. -/
  workingCopy : List GitRule
  deriving Repr, Inhabited

/-- The rules in a file at some names below a folder. -/
def rulesAt (node : FileNode) (names : List String) : List GitRule :=
  match node.at? names with
  | some (.file bytes) => GitRule.ofFile bytes
  | _ => []

/-- The rules that a folder adds. -/
def layerOf (folder : List String) (node : FileNode) : Layer :=
  { folder, general := rulesAt node [".ignore"], versioned := rulesAt node [".gitignore"],
    workingCopy := rulesAt node [".git", "info", "exclude"] }

/-- What one kind of rules says about a path; the nearest folder that says something decides. -/
def verdictOf (rules : Layer → List GitRule) (names : List String) (isFolder : Bool) :
    List Layer → Verdict
  | [] => .silent
  | layer :: outer =>
    let path := "/".intercalate (names.drop layer.folder.length)
    (GitRule.verdict (rules layer) path isFolder).orElse (verdictOf rules names isFolder outer)

/-- What all rules say about a path. -/
def verdict (layers : List Layer) (names : List String) (isFolder : Bool) : Verdict :=
  ((verdictOf Layer.general names isFolder layers).orElse
    (verdictOf Layer.versioned names isFolder layers)).orElse
    (verdictOf Layer.workingCopy names isFolder layers)

/-- Whether something is passed over, by the rules or because it is hidden or excluded. -/
def isPassedOver (layers : List Layer) (names : List String) (name : String) (isFolder : Bool) : Bool :=
  match verdict layers names isFolder with
  | .drop => true
  | .keep => excludedFolders.contains name
  | .silent => name.toList.head? == some '.' || excludedFolders.contains name

mutual

/-- The files below a node that are not passed over, with their numbers of bytes. -/
def walk (layers : List Layer) (names : List String) : FileNode → List (List String × Nat)
  | .file bytes => [(names, bytes.length)]
  | .folder entries => walkAll (layerOf names (.folder entries) :: layers) names entries

/-- The files below some entries of a folder that are not passed over. -/
def walkAll (layers : List Layer) (names : List String) :
    List (String × FileNode) → List (List String × Nat)
  | [] => []
  | (name, node) :: rest =>
    let isFolder := match node with
      | .folder _ => true
      | .file _ => false
    let found := if isPassedOver layers (names ++ [name]) name isFolder then []
      else walk layers (names ++ [name]) node
    found ++ walkAll layers names rest

end

/-- The rules of the folders above some names, the nearest first. -/
def layersAbove (tree : FileTree) (names : List String) : List Layer :=
  ((List.range names.length).map fun count =>
    let folder := names.take count
    layerOf folder ((tree.at? folder).getD (.folder []))).reverse

/-- Whether a file has the extension of a source file. -/
def isSource (names : List String) : Bool :=
  match (names.getLast?.map Path.splitExtension) with
  | some (_, some extension) => Language.scannedExtensions.contains (extension.map Char.toLower)
  | _ => false

/-- The ignore list of a project. -/
def ignoreList (tree : FileTree) (root : String) : IgnoreList :=
  match tree.readText (Path.join root IgnoreList.fileName) with
  | .ok text => .ofText text
  | .error _ => { rules := [] }

/-- The order of lists of names. -/
def namesAtMost : List String → List String → Bool
  | [], _ => true
  | _ :: _, [] => false
  | a :: as, b :: bs => a < b || (a == b && namesAtMost as bs)

/-- The paths of the source files below a folder, or of a file alone. -/
def scan (tree : FileTree) (root : String) : List String :=
  match tree.resolve root with
  | .error _ => []
  | .ok names =>
    match tree.at? names with
    | none => []
    | some node =>
      let list := ignoreList tree root
      let found := (walk (layersAbove tree names) names node).filter fun (file, size) =>
        isSource file && size ≤ maxBytes
      let paths := (found.map fun (file, _) => file.drop names.length).mergeSort namesAtMost
      (paths.map fun rest => if rest.isEmpty then root else Path.join root ("/".intercalate rest)).filter
        fun path => !list.ignores (Path.relativeTo path root)

end Sources

end Scrutiny
