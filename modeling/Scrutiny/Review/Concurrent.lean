import Scrutiny.Review.Report
import Scrutiny.Review.Schedule

/-!
# Auditing at the same time

All auditors look at all chunks of a file at the same time.  What they have found is put together in
the order of the chunks and of the auditors, whatever the order in which they come to their ends.
-/

namespace Scrutiny.Session

variable {μ : Type}

/-- The reviews of some chunks by some auditors, in order. -/
def auditReviews (session : Session μ) (refresh : Bool) (reviewers : List Reviewer) (chunks : List Chunk) :
    List (CachedReview μ (List Issue)) :=
  chunks.flatMap fun chunk => reviewers.map (session.issueReview refresh chunk)

/-- The chunks with the issues found in them, where there is one list of issues for each chunk and
each of `count` auditors. -/
def regroup (count : Nat) : List Chunk → List (List Issue) → List (Chunk × List Issue)
  | [], _ => []
  | chunk :: rest, found => (chunk, (found.take count).flatten) :: regroup count rest (found.drop count)

/-- The audits of chunks after all reviews have come to their end. -/
def conclude (count : Nat) (chunks : List Chunk) :
    Except ReviewError (List (List Issue)) → ReviewAction μ (List ChunkAudit)
  | .ok found => (regroup count chunks found).mapM fun (chunk, issues) => resolve chunk issues
  | .error e => throw e

/-- Audits chunks by steps in the given order.  There is no outcome if the steps cannot be taken in
this order, or if some review has not come to its end and none has failed. -/
def auditChunksBy? (session : Session μ) (refresh : Bool) (reviewers : List Reviewer)
    (chunks : List Chunk) (order : List Nat) (world : World μ) :
    Option (Except ReviewError (List ChunkAudit) × World μ) := do
  let jobs := (session.auditReviews refresh reviewers chunks).map Job.review
  let last ← (Schedule.ofJobs session world jobs).run? session order
  let outcome ← last.outcome?
  return conclude reviewers.length chunks outcome last.world

/-- What is audited of a file: its absolute path, and its chunks. -/
def planFor (session : Session μ) (path root : String) (tree : FileTree) :
    Except ReviewError (String × ChunkOutcome) := do
  let file ← (tree.canonical path).mapError fun e => .badPath path e.message
  let base := (tree.canonical root).toOption.getD root
  let outcome ← (chunkFileGuarded session.chunkConfig tree file base).mapError .chunking
  return (file, outcome)

/-- Removes what the cache has about some chunks, if so told. -/
def forget (session : Session μ) (force : Bool) (chunks : List Chunk) : ReviewAction μ Unit :=
  if force then
    (parentIds chunks).forM fun id => do
      let _ ← ReviewAction.onFiles ReviewAction.cacheFailure (session.cache.invalidate id)
  else pure ()

/-- Audits a file by steps in the given order. -/
def auditFileBy? (session : Session μ) (path root : String) (force : Bool) (order : List Nat)
    (world : World μ) : Option (Except ReviewError FileAudit × World μ) :=
  match session.planFor path root world.files with
  | .error e => some (.error e, world)
  | .ok (file, outcome) =>
    let degraded := outcome.degraded.map ChunkError.message
    if outcome.chunks.isEmpty then some (.ok { file, chunks := [], degraded }, world)
    else
      match session.forget force outcome.chunks world with
      | (.error e, left) => some (.error e, left)
      | (.ok (), left) =>
        (session.auditChunksBy? force Reviewer.auditors outcome.chunks order left).map
          fun (audited, last) => (audited.map fun chunks => { file, chunks, degraded }, last)

end Scrutiny.Session
