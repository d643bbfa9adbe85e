import Scrutiny.Text.Lines

/-!
# Paths

A path is a text whose parts are separated by slashes.  Empty parts count for nothing, and
neither does a single dot, unless the path starts with it.  Two dots are kept as they are.
-/

namespace Scrutiny.Path

open Text

/-- A part of a path that counts. -/
inductive Component where
  /-- The slash at the start of an absolute path. -/
  | root
  /-- The dot at the start of a relative path. -/
  | here
  /-- Two dots. -/
  | up
  /-- A name. -/
  | name (text : String)
  deriving DecidableEq, Repr, Inhabited

namespace Component

/-- The text of a component. -/
def text : Component → String
  | .root => "/"
  | .here => "."
  | .up => ".."
  | .name s => s

/-- The rank of a kind of component in the order of paths. -/
def rank : Component → Nat
  | .root => 0
  | .here => 1
  | .up => 2
  | .name _ => 3

/-- The order of components: by kind, and names by their characters. -/
def compare : Component → Component → Ordering
  | .name a, .name b => Ord.compare a b
  | a, b => Ord.compare a.rank b.rank

end Component

/-- Whether a path starts at the root. -/
def isAbsolute (path : String) : Bool :=
  path.toList.head? == some '/'

/-- The parts of a path between its slashes. -/
def pieces (path : String) : List String :=
  (splitAt '/' path.toList).map String.ofList

/-- The component that a part stands for after the first one. -/
def component? (piece : String) : Option Component :=
  if piece == "" || piece == "." then none
  else if piece == ".." then some .up
  else some (.name piece)

/-- The components of a path. -/
def components (path : String) : List Component :=
  match pieces path with
  | [] => []
  | first :: rest =>
    let start : List Component :=
      if isAbsolute path then [.root]
      else if first == "." then [.here]
      else (component? first).toList
    start ++ rest.filterMap component?

/-- Parts without those at the end that count for nothing; the first part is kept. -/
def trimPieces : List String → List String
  | [] => []
  | first :: rest =>
    first :: (rest.reverse.dropWhile fun piece => (component? piece).isNone).reverse

/-- The path made of parts. -/
def ofPieces (absolute : Bool) (parts : List String) : String :=
  if absolute && parts == [""] then "/" else "/".intercalate parts

/-- The last component if it is a name. -/
def fileName? (path : String) : Option String :=
  match (components path).getLast? with
  | some (.name s) => some s
  | _ => none

/-- The path without its last component. -/
def parent? (path : String) : Option String :=
  match (components path).getLast? with
  | none | some .root => none
  | some _ =>
    let parts := trimPieces (pieces path)
    match parts.dropLast with
    | [] => some ""
    | first :: rest => some (ofPieces (isAbsolute path) (trimPieces (first :: rest)))

/-- A name without its extension, and the extension: what stands after its last dot.  A dot at
the start of a name starts no extension. -/
def splitExtension (name : String) : String × Option String :=
  let reversed := name.toList.reverse
  let extension := reversed.takeWhile (· != '.')
  match reversed.drop extension.length with
  | [] => (name, none)
  | _ :: stem =>
    if stem.isEmpty || name == ".." then (name, none)
    else (String.ofList stem.reverse, some (String.ofList extension.reverse))

/-- The extension of the file name. -/
def extension? (path : String) : Option String :=
  (fileName? path).bind fun name => (splitExtension name).2

/-- The file name without its extension. -/
def stem? (path : String) : Option String :=
  (fileName? path).map fun name => (splitExtension name).1

/-- The second path, seen from the first one. -/
def join (base path : String) : String :=
  if isAbsolute path then path
  else if base == "" then path
  else if base.toList.getLast? == some '/' then base ++ path
  else base ++ "/" ++ path

/-- The path with another file name. -/
def withFileName (path name : String) : String :=
  match fileName? path with
  | some _ => join ((parent? path).getD "") name
  | none => join path name

/-- What is left of `parts` after as many components as there are in the list. -/
def dropComponents : List Component → List String → Option (List String)
  | [], parts => some parts
  | _ :: _, [] => none
  | c :: rest, piece :: parts =>
    match component? piece with
    | none => dropComponents (c :: rest) parts
    | some d => if c == d then dropComponents rest parts else none
termination_by _ parts => parts.length

/-- The path seen from `base`, if it starts with the components of `base`. -/
def stripBase? (path base : String) : Option String :=
  let parts := pieces path
  let clean (parts : List String) : String :=
    match parts.dropWhile fun piece => (component? piece).isNone with
    | [] => ""
    | first :: rest => "/".intercalate (trimPieces (first :: rest))
  match components base with
  | [] => some (ofPieces (isAbsolute path) (trimPieces parts))
  | .root :: names =>
    if isAbsolute path then (dropComponents names parts.tail).map clean else none
  | .here :: names =>
    if parts.head? == some "." then (dropComponents names parts.tail).map clean else none
  | names =>
    if isAbsolute path || parts.head? == some "." then none
    else (dropComponents names parts).map clean

/-- The components of a path, separated by slashes. -/
def slashed (path : String) : String :=
  "/".intercalate ((components path).map Component.text)

/-- The path of a file seen from `root`, or its name alone if it lies elsewhere. -/
def relativeTo (path root : String) : String :=
  match stripBase? path root with
  | some "" => slashed ((fileName? path).getD path)
  | some rest => slashed rest
  | none => slashed ((fileName? path).getD path)

/-- The order of lists of components. -/
def compareComponents : List Component → List Component → Ordering
  | [], [] => .eq
  | [], _ :: _ => .lt
  | _ :: _, [] => .gt
  | a :: as, b :: bs => (a.compare b).then (compareComponents as bs)

/-- Whether a path comes before another one or is the same: component by component. -/
def atMost (a b : String) : Bool :=
  compareComponents (components a) (components b) != .gt

end Scrutiny.Path
