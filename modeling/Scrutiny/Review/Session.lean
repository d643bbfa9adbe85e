import Scrutiny.Cache.Store
import Scrutiny.Chunk.Chunker
import Scrutiny.Concurrency.Permits
import Scrutiny.Documents.DesignState
import Scrutiny.Inference.Client
import Scrutiny.Text.Measure

/-!
# Sessions

What the reviews of a run share: the model and how it is asked, the cache and the folder for
data, and the limits.  Reviews are actions on a world of files, the state of the model, and a
tally of requests.  An action that fails keeps what it has done to the world.
-/

namespace Scrutiny

/-- Why a review failed. -/
inductive ReviewError where
  /-- An operation on files failed. -/
  | files (cause : FileError)
  /-- A file cannot be cut into chunks. -/
  | chunking (cause : ChunkError)
  /-- An operation on the cache failed. -/
  | cache (cause : CacheError)
  /-- The model gave no answer. -/
  | inference (cause : InferenceError)
  /-- A path is of no use. -/
  | badPath (path reason : String)
  /-- A design document was to take a step that is not allowed. -/
  | transition (cause : BadTransition)
  /-- A lock cannot be taken. -/
  | lock (reason : String)
  /-- The line of an issue is too large to be counted. -/
  | lineOverflow
  deriving DecidableEq, Repr, Inhabited

namespace ReviewError

/-- The wording of an error. -/
def message : ReviewError → String
  | .files cause => "IO error: " ++ cause.message
  | .chunking cause => "Chunker error: " ++ cause.message
  | .cache cause => "Cache error: " ++ cause.message
  | .inference cause => "Inference error: " ++ cause.message
  | .badPath path reason => "Invalid path: " ++ path ++ ": " ++ reason
  | .transition cause => cause.message
  | .lock reason => "Lock error: " ++ reason
  | .lineOverflow => "attempt to add with overflow"

/-- Whether the error ends the whole run, and not only the work on one file or chunk. -/
def isFatal : ReviewError → Bool
  | .inference cause => cause.isFatal
  | .lineOverflow => true
  | _ => false

end ReviewError

/-- The time of a run, in the forms in which it is written down. -/
structure Clock where
  /-- Seconds since the start of the epoch. -/
  seconds : Nat
  /-- The date and the time of day. -/
  date : String
  /-- The date and the time of day with its offset. -/
  instant : String
  deriving DecidableEq, Repr, Inhabited

/-- How many requests a run has made, how many results came from the cache, and how many reviews
failed. -/
structure Tally where
  /-- Questions to the model. -/
  calls : Nat
  /-- Results from the cache. -/
  hits : Nat
  /-- Reviews that failed. -/
  failures : Nat
  deriving DecidableEq, Repr, Inhabited

/-- What a run works on. -/
@[ext]
structure World (μ : Type) where
  /-- The files. -/
  files : FileTree
  /-- The state of the model. -/
  model : μ
  /-- The requests so far. -/
  tally : Tally

namespace World

variable {μ α : Type}

/-- Asks the model and counts the request. -/
def ask (world : World μ) (question : μ → Asked α μ) : Except InferenceError α × World μ :=
  let asked := question world.model
  let tally := { world.tally with calls := world.tally.calls + 1 }
  (asked.result, { world with model := asked.state, tally })

/-- Counts a result from the cache. -/
def countHit (world : World μ) : World μ :=
  { world with tally := { world.tally with hits := world.tally.hits + 1 } }

/-- Counts a review that failed. -/
def countFailure (world : World μ) : World μ :=
  { world with tally := { world.tally with failures := world.tally.failures + 1 } }

end World

/-- The settings of a run. -/
structure ReviewSettings where
  /-- The folder of the cache and of the stores. -/
  dataFolder : String
  /-- The largest number of characters of a chunk and of a question. -/
  charLimit : Nat
  /-- How many requests may be under way at the same time. -/
  concurrency : Nat
  deriving DecidableEq, Repr, Inhabited

/-- What the reviews of a run share. -/
structure Session (μ : Type) where
  /-- How the model is asked. -/
  config : ModelConfig
  /-- The model. -/
  model : Model μ
  /-- The settings. -/
  settings : ReviewSettings
  /-- The cache. -/
  cache : Cache
  /-- The time of the run. -/
  clock : Clock

/-- An action of a review. -/
abbrev ReviewAction (μ α : Type) := ExceptT ReviewError (StateM (World μ)) α

namespace ReviewAction

variable {μ α : Type}

/-- An action on the files; its failure is told as an error of the review. -/
def onFiles (wrap : FileError → ReviewError) (action : FileAction α) : ReviewAction μ α :=
  fun world =>
    let (result, files) := action world.files
    (result.mapError wrap, { world with files })

/-- Looks at the files. -/
def look (view : FileTree → α) : ReviewAction μ α :=
  fun world => (.ok (view world.files), world)

/-- The value, or the error told as an error of the review. -/
def ofExcept {ε : Type} (wrap : ε → ReviewError) (result : Except ε α) : ReviewAction μ α :=
  fun world => (result.mapError wrap, world)

/-- Asks the model and counts the request. -/
def ask (question : μ → Asked α μ) : ReviewAction μ (Except InferenceError α) :=
  fun world =>
    let (answer, next) := world.ask question
    (.ok answer, next)

/-- Counts a result from the cache. -/
def countHit : ReviewAction μ Unit :=
  fun world => (.ok (), world.countHit)

/-- Counts a review that failed. -/
def countFailure : ReviewAction μ Unit :=
  fun world => (.ok (), world.countFailure)

/-- The failure of an error of the cache. -/
def cacheFailure (cause : FileError) : ReviewError :=
  .cache (.files cause)

end ReviewAction

namespace Session

variable {μ : Type}

/-- The settings of the chunker. -/
def chunkConfig (session : Session μ) : ChunkConfig :=
  { maxChars := session.settings.charLimit, moduleBlocks := true }

/-- How many requests may be under way at the same time. -/
def limit (session : Session μ) : Nat :=
  clampConcurrency session.settings.concurrency

/-- Opens the cache of a run and checks its settings. -/
def start (config : ModelConfig) (model : Model μ) (settings : ReviewSettings) (clock : Clock) :
    ReviewAction μ (Session μ) := do
  let cache ← ReviewAction.onFiles ReviewAction.cacheFailure
    (Cache.openAt (Path.join settings.dataFolder "cache"))
  let session : Session μ := { config, model, settings, cache, clock }
  let _ ← ReviewAction.ofExcept .chunking session.chunkConfig.validate
  return session

/-- Ends a run: files that were left behind in the cache are removed. -/
def close (session : Session μ) : ReviewAction μ Unit := do
  let _ ← ReviewAction.onFiles ReviewAction.cacheFailure session.cache.close

/-- The chunks of a file, none of them too large. -/
def chunks (session : Session μ) (path root : String) : ReviewAction μ ChunkOutcome := do
  let outcome ← ReviewAction.look (chunkFileGuarded session.chunkConfig · path root)
  ReviewAction.ofExcept .chunking outcome

/-- What the model is told of a question. -/
def bounded (session : Session μ) (text : String) : String :=
  Text.truncate text session.settings.charLimit

/-- The key of a review of a chunk. -/
def keyOf (session : Session μ) (chunk : Chunk) (reviewer : String) : CacheKey :=
  .ofChunk chunk reviewer session.config.model session.config.maxOutputTokens

end Session

/-- The absolute path of a folder that exists. -/
def existingFolder {μ : Type} (path : String) : ReviewAction μ String := do
  let found ← ReviewAction.look (·.canonical path)
  let canonical ← ReviewAction.ofExcept (fun e : FileError => .badPath path e.message) found
  if ← ReviewAction.look (·.isFolder canonical) then return canonical
  else throw (.badPath path "not a directory")

/-- Takes the lock of a file, which is made if it is not there. -/
def takeLock {μ : Type} (path : String) : ReviewAction μ Unit := do
  match Path.parent? path with
  | some folder => ReviewAction.onFiles .files (FileAction.createFolders folder)
  | none => pure ()
  ReviewAction.onFiles (fun e => .lock ("open " ++ path ++ ": " ++ e.message)) (FileAction.touch path)

end Scrutiny
