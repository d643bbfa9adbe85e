import Scrutiny.Rationale.Extraction
import Scrutiny.Review.Schedule

/-!
# Tasks and releases

Tasks of several kinds that run at the same time, and how they give back what they hold.
-/

/-!
## Tasks

Reviews that look for issues and reviews that explain chunks can run at the same time, and so can the
removal of results.
-/

namespace Scrutiny

variable {μ α β : Type}

/-- The judgement with another form of the result. -/
def Judgement.map (f : α → β) : Judgement α → Judgement β
  | .usable result kept => .usable (f result) kept
  | .useless reason => .useless reason

/-- The review with another form of its result. -/
def CachedReview.map (f : α → β) (review : CachedReview μ α) : CachedReview μ β :=
  { key := review.key
    refresh := review.refresh
    readBack? := fun kept => (review.readBack? kept).map f
    ask := fun state => (review.ask state).judged (Judgement.map f)
    failed := fun reason => f (review.failed reason) }

/-- Something to be done about a chunk. -/
inductive ReviewTask where
  /-- An auditor looks for issues.  With `refresh` the cache is not asked. -/
  | audit (refresh : Bool) (chunk : Chunk) (reviewer : Reviewer)
  /-- The chunk is explained.  With `refresh` the cache is not asked. -/
  | explain (refresh : Bool) (chunk : Chunk)
  /-- All results of the chunk are removed. -/
  | invalidate (chunkId : String)
  deriving DecidableEq, Repr

/-- What a task gives. -/
inductive TaskResult where
  /-- The issues of an auditor. -/
  | issues (found : List Issue)
  /-- The explanation of a chunk. -/
  | rationale (outcome : RationaleOutcome)
  deriving DecidableEq, Repr

/-- The job that does a task. -/
def Session.jobOf (session : Session μ) : ReviewTask → Job μ TaskResult
  | .audit refresh chunk reviewer =>
    .review ((session.issueReview refresh chunk reviewer).map .issues)
  | .explain refresh chunk => .review ((session.rationaleReview refresh chunk).map .rationale)
  | .invalidate chunkId => .invalidation chunkId

/-- Tasks that have not begun. -/
def Schedule.ofTasks (session : Session μ) (world : World μ) (tasks : List ReviewTask) :
    Schedule μ TaskResult :=
  ofJobs session world (tasks.map session.jobOf)

end Scrutiny

/-!
## Releases

In a schedule, a job gives back locks and permits in the step that ends the work for which it has
taken them.  Here each release is a step of its own, and the steps of other jobs can come in between.
A job that no longer needs a lock or permit owes it, and gives back what it owes, one thing after the
other, before it goes on with its work.

A job can be abandoned at any time.  It then owes all that it has asked for, whether it was granted or
not.
-/

namespace Scrutiny

/-- Something that jobs wait for. -/
inductive Resource where
  /-- The lock of a fingerprint. -/
  | writer
  /-- A permit to ask the model. -/
  | permit
  /-- The lock of an index. -/
  | index
  deriving DecidableEq, Repr

/-- Jobs that run at the same time, and what each of them owes. -/
structure Interleaving (μ α : Type) where
  /-- The jobs, with all that they share. -/
  schedule : Schedule μ α
  /-- What has to be given back, and by which job, in the order of the releases. -/
  owed : List (Nat × Resource)

/-- What can happen next. -/
inductive Turn where
  /-- A job takes its next step. -/
  | step (i : Nat)
  /-- A job is abandoned. -/
  | abandon (i : Nat)
  deriving DecidableEq, Repr

variable {μ α : Type}

/-- What a job in a phase has asked for and still needs, what it has asked for last first. -/
def Job.claims : Job μ α → JobPhase α → List Resource
  | .review _, .atWriter | .review _, .searching | .review _, .keeping _ _ => [.writer]
  | .review _, .atPermit | .review _, .asking => [.permit, .writer]
  | .review _, .atIndex _ | .review _, .indexing _ => [.index, .writer]
  | .invalidation _, .atIndex _ | .invalidation _, .indexing _ => [.index]
  | _, _ => []

/-- What a job of a schedule has asked for and still needs. -/
def Schedule.claims (state : Schedule μ α) (i : Nat) : List Resource :=
  match state.jobs[i]? with
  | some (job, phase) => job.claims phase
  | none => []

namespace Interleaving

/-- Tasks that have not begun. -/
def ofTasks (session : Session μ) (world : World μ) (tasks : List ReviewTask) :
    Interleaving μ TaskResult :=
  { schedule := .ofTasks session world tasks, owed := [] }

/-- The schedule after a job has given something back. -/
def released (state : Schedule μ α) (i : Nat) : Resource → Schedule μ α
  | .writer => { state with writers := state.writers.leave i }
  | .index => { state with indexes := state.indexes.leave i }
  | .permit =>
    { state with
      permits := if i ∈ state.permits.held then state.permits.release i else state.permits.giveUp i }

/-- The state after a job has given back something that it owes. -/
def repaid (state : Interleaving μ α) (i : Nat) (resource : Resource) : Interleaving μ α :=
  { schedule := released state.schedule i resource, owed := state.owed.erase (i, resource) }

/-- The state after the next piece of work of a job; none if the job has to wait, or has come to its
end.  What the job no longer needs, it owes. -/
def work? (session : Session μ) (state : Interleaving μ α) (i : Nat) : Option (Interleaving μ α) :=
  (state.schedule.step? session i).map fun next =>
    let debts := (state.schedule.claims i).filter (· ∉ next.claims i)
    { schedule :=
        { next with
          writers := if .writer ∈ debts then state.schedule.writers else next.writers
          indexes := if .index ∈ debts then state.schedule.indexes else next.indexes
          permits := if .permit ∈ debts then state.schedule.permits else next.permits }
      owed := state.owed ++ debts.map (i, ·) }

/-- The state after the next step of a job, which gives something back if it owes anything. -/
def step? (session : Session μ) (state : Interleaving μ α) (i : Nat) : Option (Interleaving μ α) :=
  match state.owed.find? (·.1 == i) with
  | some (_, resource) => some (state.repaid i resource)
  | none => state.work? session i

/-- The state after a job was abandoned in a phase. -/
def abandoned (state : Interleaving μ α) (i : Nat) (job : Job μ α) (phase : JobPhase α) :
    Interleaving μ α :=
  { schedule :=
      { state.schedule.moved i (.done (.ok none)) with finished := state.schedule.finished ++ [i] }
    owed := state.owed ++ (job.claims phase).map (i, ·) }

/-- The state after a job was abandoned; none if there is no such job, or it has come to its end. -/
def abandon? (state : Interleaving μ α) (i : Nat) : Option (Interleaving μ α) :=
  match state.schedule.jobs[i]? with
  | none | some (_, .done _) => none
  | some (job, phase) => some (state.abandoned i job phase)

/-- The state after a turn; none if the turn is not possible. -/
def turn? (session : Session μ) (state : Interleaving μ α) : Turn → Option (Interleaving μ α)
  | .step i => state.step? session i
  | .abandon i => state.abandon? i

/-- The state after some turns; none if one of them is not possible. -/
def run? (session : Session μ) (state : Interleaving μ α) : List Turn → Option (Interleaving μ α)
  | [] => some state
  | turn :: rest => (state.turn? session turn).bind (run? session · rest)

/-- Whether a job has come to its end, or was abandoned, and owes nothing. -/
def HasEnded (state : Interleaving μ α) (i : Nat) : Prop :=
  (state.schedule.resultOf? i).isSome ∧ ∀ resource, (i, resource) ∉ state.owed

end Interleaving

end Scrutiny
