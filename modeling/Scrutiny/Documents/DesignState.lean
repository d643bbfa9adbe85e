import Scrutiny.Files.Tree

/-!
# The stages of a design document

A design document is written in two stages: the detailed design first, then the overview of
it.  Each stage leaves one file behind, so that the files tell where a run that was interrupted
goes on.
-/

namespace Scrutiny

/-- How far a design document has come. -/
inductive DesignState where
  | notStarted
  | detailRunning
  | detailDone
  | overviewRunning
  | overviewDone
  deriving DecidableEq, Repr, Inhabited

namespace DesignState

/-- The name of a state. -/
def name : DesignState → String
  | .notStarted => "NotStarted"
  | .detailRunning => "Stage1Running"
  | .detailDone => "Stage1Done"
  | .overviewRunning => "Stage2Running"
  | .overviewDone => "Stage2Done"

/-- The states in order. -/
def all : List DesignState :=
  [.notStarted, .detailRunning, .detailDone, .overviewRunning, .overviewDone]

/-- The state with the given name. -/
def ofName? (name : String) : Option DesignState :=
  all.find? (·.name == name)

/-- The state after a state. -/
def next? : DesignState → Option DesignState
  | .notStarted => some .detailRunning
  | .detailRunning => some .detailDone
  | .detailDone => some .overviewRunning
  | .overviewRunning => some .overviewDone
  | .overviewDone => none

/-- Whether a state may follow another one. -/
def canAdvance (state next : DesignState) : Bool :=
  state.next? == some next

end DesignState

/-- A step that the stages do not allow. -/
structure BadTransition where
  /-- The state before. -/
  source : DesignState
  /-- The state that cannot follow it. -/
  target : DesignState
  deriving DecidableEq, Repr, Inhabited

/-- The wording of a step that is not allowed. -/
def BadTransition.message (transition : BadTransition) : String :=
  "Illegal design document transition " ++ transition.source.name ++ " -> " ++ transition.target.name

/-- One run of writing a design document. -/
structure DesignRun where
  /-- The file of the detailed design. -/
  detailPath : String
  /-- The file of the overview. -/
  overviewPath : String
  /-- How far the run has come. -/
  state : DesignState
  /-- All states so far, from the first on. -/
  transitions : List DesignState
  deriving DecidableEq, Repr, Inhabited

namespace DesignRun

/-- The name of the file of the detailed design. -/
def detailFile : String := "_design_detail.md"

/-- The name of the file of the overview. -/
def overviewFile : String := "_design_overview.md"

/-- The run that goes on where the files in a folder show that an earlier one has ended.  With
`force` these files are removed first. -/
def resume (folder : String) (force : Bool) : FileAction DesignRun := do
  let detailPath := Path.join folder detailFile
  let overviewPath := Path.join folder overviewFile
  if force then
    let _ ← FileAction.removeIfThere detailPath
    let _ ← FileAction.removeIfThere overviewPath
  let written ← FileAction.look (·.occurs detailPath)
  let state := if written then .detailDone else .notStarted
  return { detailPath, overviewPath, state, transitions := [state] }

/-- The run one step further. -/
def advance (run : DesignRun) (next : DesignState) : Except BadTransition DesignRun :=
  if run.state.canAdvance next then
    .ok { run with state := next, transitions := run.transitions ++ [next] }
  else .error { source := run.state, target := next }

end DesignRun

end Scrutiny
