import Scrutiny.Concurrency.Locks
import Scrutiny.Concurrency.Permits
import Scrutiny.Review.Cached

/-!
# Schedules

Reviews that run at the same time, step by step.  A review takes the lock of its fingerprint and
keeps it to its end.  It looks into the cache; if there is no result, it waits for a permit, asks
the model and gives the permit back; a usable reply is written to the cache, and listed in the
index of the chunk under the lock of that index.  An invalidation takes the lock of an index alone.

A step is taken by one job.  The order of the jobs is free: a schedule is any list of jobs, each of
which takes its next step.
-/

namespace Scrutiny

/-- Something that runs beside others. -/
inductive Job (μ α : Type) where
  /-- A review. -/
  | review (review : CachedReview μ α)
  /-- The removal of all results of a chunk. -/
  | invalidation (chunkId : String)

/-- How far a job has come. -/
inductive JobPhase (α : Type) where
  /-- It has not begun. -/
  | idle
  /-- It waits for the lock of its fingerprint. -/
  | atWriter
  /-- It holds that lock, and is about to look into the cache. -/
  | searching
  /-- It waits for a permit. -/
  | atPermit
  /-- It has a permit, and asks the model. -/
  | asking
  /-- It has given the permit back, and is about to write its result. -/
  | keeping (result : α) (kept : Json)
  /-- It waits for the lock of the index. -/
  | atIndex (result : Option α)
  /-- It holds that lock. -/
  | indexing (result : Option α)
  /-- It has come to its end. -/
  | done (result : Except ReviewError (Option α))

/-- Jobs that run at the same time, with all that they share. -/
structure Schedule (μ α : Type) where
  /-- The files, the model and the tally. -/
  world : World μ
  /-- The locks of the fingerprints. -/
  writers : KeyedLocks Nat Fingerprint
  /-- The locks of the indexes. -/
  indexes : KeyedLocks Nat String
  /-- The permits. -/
  permits : Permits Nat
  /-- The jobs, each with how far it has come. -/
  jobs : List (Job μ α × JobPhase α)
  /-- The jobs that have come to their end, the first one first. -/
  finished : List Nat

namespace Schedule

variable {μ α : Type}

/-- Jobs that have not begun. -/
def ofJobs (session : Session μ) (world : World μ) (jobs : List (Job μ α)) : Schedule μ α :=
  { world
    writers := .empty
    indexes := .empty
    permits := .ofLimit session.settings.concurrency
    jobs := jobs.map (·, .idle)
    finished := [] }

/-- The state with a job in another phase. -/
def moved (state : Schedule μ α) (i : Nat) (phase : JobPhase α) : Schedule μ α :=
  { state with jobs := state.jobs.modify i fun (job, _) => (job, phase) }

/-- The state after the end of a job, which gives back its locks. -/
def ended (state : Schedule μ α) (i : Nat) (result : Except ReviewError (Option α)) : Schedule μ α :=
  { state.moved i (.done result) with
    writers := state.writers.leave i
    indexes := state.indexes.leave i
    finished := state.finished ++ [i] }

/-- The state after an action on the files, with what came of it. -/
def onFiles {β : Type} (state : Schedule μ α) (action : FileAction β) : Except FileError β × Schedule μ α :=
  let (result, files) := action state.world.files
  (result, { state with world := { state.world with files } })

/-- The state after the model was asked, and the permit given back. -/
def answered (state : Schedule μ α) (i : Nat) (review : CachedReview μ α) : Schedule μ α :=
  let (answer, world) := state.world.ask review.ask
  let free := { state with world, permits := state.permits.release i }
  let failed (reason : String) : Schedule μ α :=
    { free with world := world.countFailure }.ended i (.ok (some (review.failed reason)))
  match answer with
  | .ok (.usable result kept) => free.moved i (.keeping result kept)
  | .ok (.useless reason) => failed reason
  | .error e => if e.isFatal then free.ended i (.error (.inference e)) else failed e.message

/-- The state after the lock of an index was asked for. -/
def askForIndex (state : Schedule μ α) (i : Nat) (id : String) (result : Option α) : Schedule μ α :=
  { state with indexes := state.indexes.ask i id }.moved i (.atIndex result)

/-- The state after a job has taken the lock of an index, if it can. -/
def takeIndex? (state : Schedule μ α) (i : Nat) (result : Option α) : Option (Schedule μ α) :=
  if state.indexes.isNext i then
    some ({ state with indexes := state.indexes.grant i }.moved i (.indexing result))
  else none

/-- The next step of a review; none if it has to wait, or has come to its end. -/
def reviewStep? (session : Session μ) (state : Schedule μ α) (i : Nat) (review : CachedReview μ α) :
    JobPhase α → Option (Schedule μ α)
  | .idle =>
    some ({ state with writers := state.writers.ask i review.key.fingerprint }.moved i .atWriter)
  | .atWriter =>
    if state.writers.isNext i then
      some ({ state with writers := state.writers.grant i }.moved i .searching)
    else none
  | .searching =>
    match review.found? session.cache state.world.files with
    | some result => some ({ state with world := state.world.countHit }.ended i (.ok (some result)))
    | none => some ({ state with permits := state.permits.acquire i }.moved i .atPermit)
  | .atPermit => if i ∈ state.permits.held then some (state.moved i .asking) else none
  | .asking => some (state.answered i review)
  | .keeping result kept =>
    let entry := CacheEntry.ofKey review.key kept session.clock.seconds
    let path := session.cache.entryPath review.key.fingerprint
    match state.onFiles (FileAction.writeJson path entry.toJson) with
    | (.ok (), written) => some (written.askForIndex i review.key.indexId (some result))
    | (.error _, failed) => some (failed.ended i (.ok (some result)))
  | .atIndex result => state.takeIndex? i result
  | .indexing result =>
    let (_, listed) := state.onFiles (session.cache.addToIndex review.key.indexId review.key.fingerprint)
    some (listed.ended i (.ok result))
  | .done _ => none

/-- The next step of an invalidation; none if it has to wait, or has come to its end. -/
def invalidationStep? (session : Session μ) (state : Schedule μ α) (i : Nat) (chunkId : String) :
    JobPhase α → Option (Schedule μ α)
  | .idle => some (state.askForIndex i (parentId chunkId) none)
  | .atIndex result => state.takeIndex? i result
  | .indexing result =>
    match state.onFiles (session.cache.invalidate chunkId) with
    | (.ok _, removed) => some (removed.ended i (.ok result))
    | (.error e, failed) => some (failed.ended i (.error (ReviewAction.cacheFailure e)))
  | _ => none

/-- The state after the next step of a job; none if the job has to wait, or has come to its end. -/
def step? (session : Session μ) (state : Schedule μ α) (i : Nat) : Option (Schedule μ α) :=
  match state.jobs[i]? with
  | some (.review review, phase) => state.reviewStep? session i review phase
  | some (.invalidation chunkId, phase) => state.invalidationStep? session i chunkId phase
  | none => none

/-- The state after steps of the given jobs; none if one of them has to wait. -/
def run? (session : Session μ) (state : Schedule μ α) : List Nat → Option (Schedule μ α)
  | [] => some state
  | i :: rest => (state.step? session i).bind fun next => run? session next rest

/-- The result of a job that has come to its end. -/
def resultOf? (state : Schedule μ α) (i : Nat) : Option (Except ReviewError (Option α)) :=
  match state.jobs[i]? with
  | some (_, .done result) => some result
  | _ => none

/-- What came of all jobs: the error of the job that failed first, or the results in the order of
the jobs; none while some job has not come to its end. -/
def outcome? (state : Schedule μ α) : Option (Except ReviewError (List α)) :=
  let failure? := state.finished.findSome? fun i =>
    match state.resultOf? i with
    | some (.error e) => some e
    | _ => none
  match failure? with
  | some e => some (.error e)
  | none =>
    ((List.range state.jobs.length).mapM state.resultOf?).map fun results =>
      .ok (results.filterMap fun result => result.toOption.bind id)

end Schedule

end Scrutiny
