import Scrutiny.Rationale.Extraction
import Scrutiny.Review.Concurrent

/-!
# Runs

A run audits a file, audits a project, or explains the chunks of a project.  Files are worked on one
after the other; the reviews of one file run at the same time.  The steps of each such group of reviews
are taken in an order that is handed to the run.
-/

namespace Scrutiny

/-- An action of a review with groups of reviews that run at the same time.  Each group takes the order
of its steps from a list of orders; there is no outcome if a group cannot be brought to an end by the
steps in its order, or if there are no orders left. -/
abbrev OrderedAction (μ α : Type) :=
  ExceptT ReviewError (StateT (World μ × List (List Nat)) Option) α

namespace OrderedAction

variable {μ α : Type}

/-- An action without groups of reviews. -/
def lift (action : ReviewAction μ α) : OrderedAction μ α :=
  fun (world, orders) =>
    let (result, next) := action world
    some (result, next, orders)

/-- An action with one group of reviews. -/
def group (action : List Nat → World μ → Option (Except ReviewError α × World μ)) : OrderedAction μ α :=
  fun (world, orders) =>
    match orders with
    | [] => none
    | order :: rest => (action order world).map fun (result, next) => (result, next, rest)

end OrderedAction

namespace Session

variable {μ : Type}

open OrderedAction

/-- Audits one file and writes the result; a file without chunks has none. -/
def auditSingleInOrder (session : Session μ) (path : String) (force : Bool) (out : Option String) :
    OrderedAction μ (Option (FileAudit × String)) := do
  let root := (Path.parent? path).getD "."
  let audit ← group (session.auditFileBy? path root force)
  if audit.isEmpty then return none
  let artifact := FileAudit.artifactPath audit.file ((Path.parent? audit.file).getD root) out
  lift (audit.write artifact)
  return some (audit, artifact)

/-- Audits one file of a project and writes the result. -/
def auditMemberInOrder (session : Session μ) (root : String) (force : Bool) (out : Option String)
    (progress : AuditProgress) (path : String) : OrderedAction μ AuditProgress := do
  let file := Path.relativeTo path root
  let attempt : OrderedAction μ AuditProgress := do
    let audit ← group (session.auditFileBy? path root force)
    if audit.isEmpty then return { progress with skipped := progress.skipped + 1 }
    lift (audit.write (FileAudit.artifactPath path root out))
    let summary : FileSummary :=
      { file, totalIssues := audit.totalIssues, highSeverity := audit.highSeverity }
    return { progress with audited := progress.audited ++ [summary] }
  tryCatch attempt fun e =>
    if e.isFatal then throw e
    else return { progress with failed := progress.failed ++ [{ file, reason := e.message }] }

/-- Audits all source files of a project, and writes the results and their summary. -/
def auditProjectInOrder (session : Session μ) (folder : String) (force : Bool) (out : Option String) :
    OrderedAction μ ProjectAudit := do
  let root ← lift (existingFolder folder)
  let files ← lift (ReviewAction.look (Sources.scan · root))
  let progress ← files.foldlM (session.auditMemberInOrder root force out)
    { audited := [], failed := [], skipped := 0 }
  let audit := ProjectAudit.ofProgress root files.length out progress
  lift (ReviewAction.onFiles ReviewAction.cacheFailure
    (FileAction.writeJson audit.summaryPath audit.toJson))
  return audit

/-- Explains chunks by steps in the given order. -/
def explainChunksBy? (session : Session μ) (refresh : Bool) (chunks : List Chunk) (order : List Nat)
    (world : World μ) : Option (Except ReviewError (List RationaleOutcome) × World μ) := do
  let jobs := (chunks.map (session.rationaleReview refresh)).map Job.review
  let last ← (Schedule.ofJobs session world jobs).run? session order
  let outcome ← last.outcome?
  return (outcome, last.world)

/-- Explains the chunks of a file and saves the store. -/
def explainFileInOrder (session : Session μ) (root storePath : String) (force : Bool)
    (progress : RationaleProgress) (path : String) : OrderedAction μ RationaleProgress := do
  match ← lift (session.chunksOrNone path root) with
  | none => return { progress with failed := progress.failed + 1 }
  | some chunks =>
    let (pending, known) := chunks.partition fun chunk => force || !progress.store.contains chunk.id
    let progress := { progress with skipped := progress.skipped + known.length }
    if pending.isEmpty then return progress
    let outcomes ← group (session.explainChunksBy? force pending)
    let file := Path.relativeTo path root
    let progress := (pending.zip outcomes).foldl
      (fun progress (chunk, outcome) => session.recordRationale file progress chunk outcome) progress
    lift (ReviewAction.onFiles ReviewAction.cacheFailure (progress.store.save storePath))
    return progress

/-- Explains the chunks of all source files of a project. -/
def extractRationaleInOrder (session : Session μ) (folder : String) (force : Bool) :
    OrderedAction μ RationaleReport := do
  let root ← lift (existingFolder folder)
  let storePath := RationaleStore.pathFor session.settings.dataFolder root
  lift (takeLock (storeLock storePath))
  let store ← lift (ReviewAction.look (RationaleStore.load · storePath))
  let files ← lift (ReviewAction.look (Sources.scan · root))
  let progress ← files.foldlM (session.explainFileInOrder root storePath force)
    { store, extracted := 0, skipped := 0, failed := 0 }
  return { folder := root, storePath, extracted := progress.extracted, skipped := progress.skipped,
           failed := progress.failed, totalEntries := progress.store.size }

end Session

/-- What a run is to do. -/
inductive ReviewRun where
  /-- To audit a file. -/
  | auditFile (path root : String) (force : Bool)
  /-- To audit a project. -/
  | auditProject (folder : String) (force : Bool) (out : Option String)
  /-- To explain the chunks of a project. -/
  | extractRationale (folder : String) (force : Bool)
  deriving DecidableEq, Repr

/-- Does what a run is to do. -/
def Session.carryOut {μ : Type} (session : Session μ) : ReviewRun → OrderedAction μ Unit
  | .auditFile path root force => do
    let _ ← OrderedAction.group (session.auditFileBy? path root force)
  | .auditProject folder force out => do
    let _ ← session.auditProjectInOrder folder force out
  | .extractRationale folder force => do
    let _ ← session.extractRationaleInOrder folder force

end Scrutiny
