import Scrutiny.Command.Arguments
import Scrutiny.Scan.Sources
import Scrutiny.Settings

/-!
# Reach

The files that a command may look at or change, before it is known what they hold.  Whoever keeps
the files elsewhere can bring these together, run the command, and take back what has changed.
-/

namespace Scrutiny

open Text

namespace Command

/-- The paths among the arguments of a command. -/
def paths : Command → List String
  | .audit path _ out => path :: out.toList
  | .extractWhy folder _ => [folder]
  | .listWhy folder _ => [folder]
  | .reviewArchitecture folder out => folder :: out.toList
  | .designDoc folder out _ => folder :: out.toList
  | .config => []

end Command

namespace Sources

/-- The files of a folder with rules on what is passed over below it. -/
def ruleFiles : List String := [".ignore", ".gitignore", ".git/info/exclude"]

/-- The files with rules in the folder with some names and in those above it. -/
def ruleFilesAbove (names : List String) : List String :=
  (List.range (names.length + 1)).flatMap fun count =>
    ruleFiles.map (Path.join ("/" ++ "/".intercalate (names.take count)))

end Sources

namespace Environment

/-- The names that bytes speak of: all that is written with the characters of names. -/
def mentioned (bytes : List UInt8) : List String :=
  let pieces := (lossyText bytes).toList.splitBy fun a b => inName a == inName b
  ((pieces.filter fun piece => piece.head?.any startsName).map String.ofList).eraseDups

end Environment

namespace Settings

/-- The names of the variables that settings come from. -/
def variableNames : List String :=
  ["LLM_API_BASE_URL", "LLM_API_KEY", "LLM_MODEL_NAME", "LLM_MAX_OUTPUT_TOKENS", "AI_AUDIT_DATA_DIR",
    "AI_AUDIT_CONCURRENCY", "AI_AUDIT_CHAR_LIMIT"]

end Settings

namespace FileTree

/-- What has to be done to the files of one tree to have those of another one. -/
structure Difference where
  /-- The files that are new or have changed, each with its bytes. -/
  written : List (String × List UInt8)
  /-- The files that are gone. -/
  removed : List String
  deriving DecidableEq, Repr, Inhabited

/-- The files of a tree, each under its path. -/
def paths (tree : FileTree) : List (String × List UInt8) :=
  tree.root.files.map fun (names, bytes) => ("/" ++ "/".intercalate names, bytes)

/-- Compares the files of two lists that are in the same order of paths. -/
def compareFiles : List (String × List UInt8) → List (String × List UInt8) → Difference
  | [], after => { written := after, removed := [] }
  | before, [] => { written := [], removed := before.map (·.1) }
  | (path, bytes) :: before, (path', bytes') :: after =>
    if path == path' then
      let rest := compareFiles before after
      if bytes == bytes' then rest else { rest with written := (path', bytes') :: rest.written }
    else if after.any (·.1 == path) then
      let rest := compareFiles ((path, bytes) :: before) after
      { rest with written := (path', bytes') :: rest.written }
    else
      let rest := compareFiles before ((path', bytes') :: after)
      { rest with removed := path :: rest.removed }
  termination_by before after => before.length + after.length

/-- What has to be done to the files of a tree to have those of another one. -/
def difference (before after : FileTree) : Difference :=
  compareFiles before.paths after.paths

end FileTree

end Scrutiny
