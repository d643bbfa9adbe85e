import Scrutiny.Review.Cached
import Scrutiny.Review.Issue
import Scrutiny.Review.Reviewer

/-!
# Auditing chunks

Each chunk of a file is shown to each of the auditors.  A reply that is of no use becomes an issue
of its own; only an error of the configuration ends the run.
-/

namespace Scrutiny

/-- What all auditors have found in one chunk. -/
structure ChunkAudit where
  /-- The chunk. -/
  chunkId : String
  /-- The line it starts on, counted from zero. -/
  startLine : Nat
  /-- The issues, in the order of the auditors. -/
  issues : List Issue
  deriving DecidableEq, Repr, Inhabited

namespace ChunkAudit

/-- The number of issues of high severity. -/
def highSeverity (audit : ChunkAudit) : Nat :=
  audit.issues.countP (·.severity == .high)

/-- The audit as a JSON value. -/
def toJson (audit : ChunkAudit) : Json :=
  .object [("chunk_id", .string audit.chunkId), ("start_line", Json.nat audit.startLine),
    ("issues", .array (audit.issues.map Issue.toJson))]

end ChunkAudit

namespace Session

variable {μ : Type}

/-- What a reply with a list of issues is worth. -/
def judgeIssues (type : String) (reply : Json) : Judgement (List Issue) :=
  match Issue.ofReply? reply type with
  | some issues => .usable issues reply
  | none => .useless Issue.missingList

/-- The review of a chunk by one auditor.  With `refresh` the cache is not asked. -/
def issueReview (session : Session μ) (refresh : Bool) (chunk : Chunk) (reviewer : Reviewer) :
    CachedReview μ (List Issue) :=
  { key := session.keyOf chunk reviewer.id
    refresh
    readBack? := (Issue.ofReply? · reviewer.issueType)
    ask := fun state => (Inference.object session.config session.model reviewer.prompt
      (session.bounded chunk.text) state).judged (judgeIssues reviewer.issueType)
    failed := fun reason => [Issue.ofFailure reviewer.id reason] }

/-- The issues that one auditor reports about a chunk. -/
def reviewChunk (session : Session μ) (refresh : Bool) (chunk : Chunk) (reviewer : Reviewer) :
    ReviewAction μ (List Issue) :=
  session.perform (session.issueReview refresh chunk reviewer)

/-- The issues that each of some auditors reports about a chunk, in their order. -/
def reviewByAll (session : Session μ) (refresh : Bool) (reviewers : List Reviewer) (chunk : Chunk) :
    ReviewAction μ (List Issue) := do
  let found ← reviewers.mapM (session.reviewChunk refresh chunk)
  return found.flatten

/-- The audit of a chunk with some issues, each with its line in the file. -/
def resolve (chunk : Chunk) (issues : List Issue) : ReviewAction μ ChunkAudit :=
  match issues.mapM fun issue => issue.resolved? chunk.startLine with
  | some resolved => return { chunkId := chunk.id, startLine := chunk.startLine, issues := resolved }
  | none => throw .lineOverflow

/-- Audits chunks, in order. -/
def auditChunks (session : Session μ) (refresh : Bool) (reviewers : List Reviewer)
    (chunks : List Chunk) : ReviewAction μ (List ChunkAudit) := do
  let found ← chunks.mapM fun chunk => return (chunk, ← session.reviewByAll refresh reviewers chunk)
  found.mapM fun (chunk, issues) => resolve chunk issues

end Session

end Scrutiny
