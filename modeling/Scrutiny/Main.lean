import Scrutiny.Command.Reach
import Scrutiny.Command.Run
import Scrutiny.Inference.Transport
import Scrutiny.Review.Calendar
import Std.Time.DateTime.Timestamp

/-!
# The program

Brings together the files that a command may need, runs the command on them, and takes back what
it has changed.  There is no network here: every request to a service stays without an answer.
-/

namespace Scrutiny.Program

open Scrutiny

/-- How many folders within each other are looked into. -/
def maxDepth : Nat := 64

/-- The tree with the file at an absolute path, if there is one. -/
def withFile (tree : FileTree) (path : String) : IO FileTree := do
  try
    let bytes ← IO.FS.readBinFile path
    return (FileAction.writeWithFolders path bytes.toList tree).2
  catch _ => return tree

/-- The names in the folder at an absolute path, if there is one. -/
def namesIn? (path : String) : IO (Option (List String)) := do
  try
    let entries ← (← IO.FS.realPath path).readDir
    return some (entries.toList.map (·.fileName))
  catch _ => return none

/-- The tree with what is at an absolute path and below it. -/
def withAll : Nat → FileTree → String → IO FileTree
  | 0, tree, _ => return tree
  | depth + 1, tree, path => do
    match ← namesIn? path with
    | none => withFile tree path
    | some names =>
      let made := (FileAction.createFolders path tree).2
      names.foldlM (fun grown name =>
        let inner := Path.join path name
        if name == ".git" then withFile grown (Path.join inner "info/exclude")
        else withAll depth grown inner) made

/-- The values of some variables. -/
def variablesNamed (names : List String) : IO Environment := do
  let found ← names.filterMapM fun name => do
    return (← IO.getEnv name).map (name, ·)
  return { values := found }

/-- Takes over what a command has changed. -/
def apply (difference : FileTree.Difference) : IO Unit := do
  for path in difference.removed do
    IO.FS.removeFile path
  for (path, bytes) in difference.written do
    match Path.parent? path with
    | some folder => IO.FS.createDirAll folder
    | none => pure ()
    IO.FS.writeBinFile path (ByteArray.mk bytes.toArray)

/-- Says how a command ended. -/
def say : Ending → IO Unit
  | .done output => do
    output.lines.forM fun line => IO.println line
    output.failed.forM fun line => IO.eprintln line
  | .failed failure => IO.eprintln ("Error: " ++ failure.report)
  | .overflow => IO.eprintln ReviewError.lineOverflow.message
  | .usage => IO.eprintln "error: the arguments are not understood; see --help"
  | .information => IO.println "Review source code with LLM personas"

/-- The tree that a command needs. -/
def gather (here : String) (home : Option String) (environment : Environment) (start : FileTree)
    (arguments : List String) : IO FileTree := do
  let (_, environment) := environment.loadFile start Environment.fileName
  match Arguments.parse arguments, Settings.ofVariables home environment.get? with
  | .ok invocation, .ok settings =>
    let paths := (settings.dataFolder :: invocation.command.paths).map (Path.join here)
    let grown ← paths.foldlM (withAll maxDepth) start
    let rules := paths.flatMap fun path => Sources.ruleFilesAbove ((Path.pieces path).filter (· != ""))
    rules.foldlM withFile grown
  | _, _ => return start

/-- Runs the program with some arguments, and gives the exit code. -/
def run (arguments : List String) : IO UInt32 := do
  let here := (← IO.currentDir).toString
  let home ← IO.getEnv "HOME"
  let folder := (FileAction.createFolders here FileTree.empty).2
  let names := (Path.pieces here).filter (· != "")
  let start ← withFile { folder with here := names } (Path.join here Environment.fileName)
  let mentioned := match start.read Environment.fileName with
    | .ok bytes => Environment.mentioned bytes
    | .error _ => []
  let environment ← variablesNamed (Settings.variableNames ++ mentioned)
  let tree ← gather here home environment start arguments
  let now ← Std.Time.Timestamp.now
  let clock := Clock.ofSeconds now.toSecondsSinceUnixEpoch.val.toNat
    (now.toNanosecondsSinceUnixEpoch.val.toNat % 1000000000)
  let silent (state : Unit) (_ : OutgoingMessage) : Option IncomingMessage × Unit := (none, state)
  let (ending, after) := Command.run arguments home environment
    (fun config => Transport.model config silent) clock { files := tree, model := (), tally := default }
  apply (tree.difference after.files)
  say ending
  return ending.code.toUInt32

end Scrutiny.Program

/-- Runs the program. -/
def main (arguments : List String) : IO UInt32 :=
  Scrutiny.Program.run arguments
