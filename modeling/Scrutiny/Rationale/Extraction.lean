import Scrutiny.Rationale.Store
import Scrutiny.Review.Audit

/-!
# Extracting rationale

A model explains why each chunk of a project is as it is.  The explanations are kept in the
rationale store of the project, which is saved after each file; chunks that are explained there
already are passed over.
-/

namespace Scrutiny

open Text

/-- What became of the explanation of a chunk. -/
inductive RationaleOutcome where
  /-- There is an explanation, from the cache or from the model. -/
  | extracted (text : String) (cached : Bool)
  /-- There is none. -/
  | failed (reason : String)
  deriving DecidableEq, Repr, Inhabited

/-- What a run of the extraction has done. -/
structure RationaleReport where
  /-- The folder of the project. -/
  folder : String
  /-- The file of the store. -/
  storePath : String
  /-- The number of new explanations. -/
  extracted : Nat
  /-- The number of chunks that were explained already. -/
  skipped : Nat
  /-- The number of files that could not be cut and of chunks without an explanation. -/
  failed : Nat
  /-- The number of entries of the store. -/
  totalEntries : Nat
  deriving DecidableEq, Repr, Inhabited

/-- The report as a JSON value. -/
def RationaleReport.toJson (report : RationaleReport) : Json :=
  .object [("directory", .string report.folder), ("store_path", .string report.storePath),
    ("extracted", Json.nat report.extracted), ("skipped", Json.nat report.skipped),
    ("failed", Json.nat report.failed), ("total_entries", Json.nat report.totalEntries)]

/-- The store and the counts while a project is worked on. -/
structure RationaleProgress where
  /-- The store. -/
  store : RationaleStore
  /-- The number of new explanations. -/
  extracted : Nat
  /-- The number of chunks that were explained already. -/
  skipped : Nat
  /-- The number of failures. -/
  failed : Nat
  deriving DecidableEq, Repr, Inhabited

namespace Session

variable {μ : Type}

/-- An explanation as the cache keeps it. -/
def rationaleJson (text : String) : Json :=
  .object [("rationale", .string text)]

/-- The review that asks for the explanation of a chunk.  With `refresh` the cache is not asked. -/
def rationaleReview (session : Session μ) (refresh : Bool) (chunk : Chunk) :
    CachedReview μ RationaleOutcome :=
  let reviewer := Reviewer.whyExtractor
  { key := session.keyOf chunk reviewer.id
    refresh
    readBack? := fun kept => ((kept.field? "rationale").bind Json.string?).map (.extracted · true)
    ask := fun state => (Inference.text session.config session.model reviewer.prompt
      (session.bounded chunk.text) state).judged fun reply =>
        let text := String.ofList (trim reply.toList)
        .usable (.extracted text false) (rationaleJson text)
    failed := .failed }

/-- The explanation of a chunk. -/
def explainChunk (session : Session μ) (refresh : Bool) (chunk : Chunk) :
    ReviewAction μ RationaleOutcome :=
  session.perform (session.rationaleReview refresh chunk)

/-- The progress with what became of one chunk of a file. -/
def recordRationale (session : Session μ) (file : String) (progress : RationaleProgress)
    (chunk : Chunk) (outcome : RationaleOutcome) : RationaleProgress :=
  match outcome with
  | .failed _ => { progress with failed := progress.failed + 1 }
  | .extracted text _ =>
    let entry : RationaleEntry :=
      { chunkId := chunk.id, filePath := file, name := chunk.name, kind := chunk.kind.name,
        rationale := text, extractedAt := session.clock.instant }
    { progress with store := progress.store.insert entry, extracted := progress.extracted + 1 }

/-- The chunks of a file; a file that cannot be cut has none. -/
def chunksOrNone (session : Session μ) (path root : String) : ReviewAction μ (Option (List Chunk)) :=
  tryCatch (do return some (← session.chunks path root).chunks) fun _ => return none

/-- Explains the chunks of a file and saves the store. -/
def explainFile (session : Session μ) (root storePath : String) (force : Bool)
    (progress : RationaleProgress) (path : String) : ReviewAction μ RationaleProgress := do
  match ← session.chunksOrNone path root with
  | none => return { progress with failed := progress.failed + 1 }
  | some chunks =>
    let (pending, known) := chunks.partition fun chunk => force || !progress.store.contains chunk.id
    let progress := { progress with skipped := progress.skipped + known.length }
    if pending.isEmpty then return progress
    let outcomes ← pending.mapM (session.explainChunk force)
    let file := Path.relativeTo path root
    let progress := (pending.zip outcomes).foldl
      (fun progress (chunk, outcome) => session.recordRationale file progress chunk outcome) progress
    ReviewAction.onFiles ReviewAction.cacheFailure (progress.store.save storePath)
    return progress

/-- The lock of a rationale store. -/
def storeLock (storePath : String) : String :=
  Path.withFileName storePath ((Path.stem? storePath).getD "" ++ ".lock")

/-- Explains the chunks of all source files of a project. -/
def extractRationale (session : Session μ) (folder : String) (force : Bool) :
    ReviewAction μ RationaleReport := do
  let root ← existingFolder folder
  let storePath := RationaleStore.pathFor session.settings.dataFolder root
  takeLock (storeLock storePath)
  let store ← ReviewAction.look (RationaleStore.load · storePath)
  let files ← ReviewAction.look (Sources.scan · root)
  let progress ← files.foldlM (session.explainFile root storePath force)
    { store, extracted := 0, skipped := 0, failed := 0 }
  return { folder := root, storePath, extracted := progress.extracted, skipped := progress.skipped,
           failed := progress.failed, totalEntries := progress.store.size }

/-- The explanations of a project that have a text in them. -/
def listRationale (session : Session μ) (folder : String) (filter : Option String) :
    ReviewAction μ (List RationaleEntry) := do
  let root ← existingFolder folder
  let path := RationaleStore.pathFor session.settings.dataFolder root
  let store ← ReviewAction.look (RationaleStore.load · path)
  return store.matching filter

end Session

end Scrutiny
