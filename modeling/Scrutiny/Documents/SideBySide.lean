import Scrutiny.Documents.Design

/-!
# Design documents side by side

Several runs of writing design documents at the same time, step by step.  Each run finds its folder and
makes the file of its lock, waits until no other run holds that lock, and then works: it looks where it
has to start, writes the detailed design if it has to, and writes the overview.  It gives the lock back
when it ends.

A lock is held on a file, whatever the path by which the file was opened.
-/

namespace Scrutiny

/-- A run of writing a design document. -/
structure DesignCall (μ : Type) where
  /-- What the run works with. -/
  session : Session μ
  /-- The project. -/
  folder : String
  /-- The folder of the documents, if it is not that of the project. -/
  out : Option String
  /-- Whether documents that are there are removed first. -/
  force : Bool

/-- How far a run has come. -/
inductive DesignPhase where
  /-- It has not begun. -/
  | idle
  /-- It waits for its lock. -/
  | atLock (root target : String)
  /-- It holds its lock, and is about to look where to start. -/
  | locked (root target : String)
  /-- It is about to write the detailed design. -/
  | detailing (root target : String) (run : DesignRun)
  /-- It is about to write the overview. -/
  | overviewing (target : String) (detailSkipped : Bool) (run : DesignRun)
  /-- It has come to its end. -/
  | ended (result : Except ReviewError DesignReport)

/-- The folder that a run works in, if it is at work. -/
def DesignPhase.target? : DesignPhase → Option String
  | .locked _ target | .detailing _ target _ | .overviewing target _ _ => some target
  | _ => none

/-- Runs of writing design documents, with all that they share. -/
structure DesignRuns (μ : Type) where
  /-- The files, the model and the tally. -/
  world : World μ
  /-- The runs, each with how far it has come. -/
  runs : List (DesignCall μ × DesignPhase)

variable {μ : Type}

namespace DesignCall

/-- The file of the lock of the documents in a folder. -/
def lockFile? (call : DesignCall μ) (tree : FileTree) (target : String) : Option (List String) :=
  (tree.resolve (call.session.designLock target)).toOption

/-- Finds the project, makes the folder of the documents, and makes the file of the lock. -/
def prepare (call : DesignCall μ) : ReviewAction μ (String × String) := do
  let root ← existingFolder call.folder
  let target := call.out.getD root
  ReviewAction.onFiles .files (FileAction.createFolders target)
  takeLock (call.session.designLock target)
  return (root, target)

/-- The phase after a look at the documents. -/
def begun (root target : String) (start : DesignRun) : DesignPhase :=
  if start.state == .detailDone then .overviewing target true start else .detailing root target start

/-- What a run tells at its end. -/
def report (detailSkipped : Bool) (finished : DesignRun) : DesignReport :=
  { detailPath := finished.detailPath, overviewPath := finished.overviewPath, detailSkipped,
    transitions := finished.transitions }

/-- The action of a run in a phase, and the phase that it leads to. -/
def act (call : DesignCall μ) : DesignPhase → ReviewAction μ DesignPhase
  | .idle => do
    let (root, target) ← call.prepare
    return .atLock root target
  | .locked root target => do
    let start ← ReviewAction.onFiles .files (DesignRun.resume target call.force)
    return begun root target start
  | .detailing root target run => do
    let detailed ← call.session.runDetail root run
    return .overviewing target false detailed
  | .overviewing _ detailSkipped run => do
    let finished ← call.session.runOverview run
    return .ended (.ok (report detailSkipped finished))
  | .atLock root target => return .locked root target
  | .ended result => return .ended result

end DesignCall

namespace DesignRuns

/-- Runs that have not begun. -/
def ofCalls (world : World μ) (calls : List (DesignCall μ)) : DesignRuns μ :=
  { world, runs := calls.map (·, .idle) }

/-- Whether a run holds the lock of a file. -/
def holds (tree : FileTree) (file : List String) : DesignCall μ × DesignPhase → Bool
  | (call, phase) => phase.target?.any fun target => call.lockFile? tree target == some file

/-- Whether some run holds the lock of a file. -/
def isHeld (state : DesignRuns μ) (file : List String) : Bool :=
  state.runs.any (holds state.world.files file)

/-- Whether a run has to wait, or has come to its end. -/
def isStopped (state : DesignRuns μ) (call : DesignCall μ) : DesignPhase → Bool
  | .atLock _ target => (call.lockFile? state.world.files target).any state.isHeld
  | .ended _ => true
  | _ => false

/-- The state after the action of a run.  A run whose action fails has come to its end. -/
def acted (state : DesignRuns μ) (i : Nat) (call : DesignCall μ) (phase : DesignPhase) : DesignRuns μ :=
  let (result, world) := call.act phase state.world
  let later : DesignPhase :=
    match result with
    | .ok later => later
    | .error e => .ended (.error e)
  { world, runs := state.runs.set i (call, later) }

/-- The state after the next step of a run; none if the run has to wait, or has come to its end. -/
def step? (state : DesignRuns μ) (i : Nat) : Option (DesignRuns μ) :=
  match state.runs[i]? with
  | some (call, phase) => if state.isStopped call phase then none else some (state.acted i call phase)
  | none => none

/-- The state after steps of the given runs; none if one of them has to wait. -/
def run? (state : DesignRuns μ) : List Nat → Option (DesignRuns μ)
  | [] => some state
  | i :: rest => (state.step? i).bind (run? · rest)

/-- The run and the folder that it works in, if it is at work. -/
def work? (state : DesignRuns μ) (i : Nat) : Option (DesignCall μ × String) :=
  match state.runs[i]? with
  | some (call, phase) => phase.target?.map (call, ·)
  | none => none

end DesignRuns

end Scrutiny
