import Scrutiny.Cache.Entry
import Scrutiny.Files.Atomic
import Scrutiny.Text.Utf8

/-!
# Storing results

The files of the cache, and what is left of them if storing a result is interrupted.
-/

namespace Scrutiny

/-!
## The cache

The results of reviews, kept in files below one folder:

* `entries/aa/bb/<fingerprint>.json` holds one result; `aa` and `bb` are the first digits of
  its fingerprint;
* `chunks/aa/<digest of the chunk id>.json` lists the fingerprints of one chunk, so that all
  its results can be removed.

Looking up a result never fails: what cannot be read counts as missing.
-/

/-- Why an operation on the cache failed. -/
inductive CacheError where
  /-- An operation on files failed. -/
  | files (cause : FileError)
  /-- A text is no fingerprint. -/
  | badFingerprint (text : String)
  deriving DecidableEq, Repr, Inhabited

/-- The wording of an error. -/
def CacheError.message : CacheError → String
  | .files cause => "IO error: " ++ cause.message
  | .badFingerprint text => "Invalid fingerprint: " ++ text

/-- The fingerprint with the given digits. -/
def Fingerprint.ofText (text : String) : Except CacheError Fingerprint :=
  match ofText? text with
  | some fingerprint => .ok fingerprint
  | none => .error (.badFingerprint text)

/-- A cache, by the folder of its files. -/
structure Cache where
  /-- The path of the folder. -/
  root : String
  deriving DecidableEq, Repr, Inhabited

namespace Cache

/-- The file of a result. -/
def entryPath (cache : Cache) (fingerprint : Fingerprint) : String :=
  let (first, second) := fingerprint.shards
  ["entries", first, second, fingerprint.text ++ ".json"].foldl Path.join cache.root

/-- The file that lists the fingerprints of a chunk. -/
def indexPath (cache : Cache) (chunkId : String) : String :=
  let digits := Sha256.ofText chunkId
  ["chunks", String.ofList (digits.toList.take 2), digits ++ ".json"].foldl Path.join
    cache.root

/-- Makes the folders of a cache. -/
def openAt (root : String) : FileAction Cache := do
  FileAction.createFolders (Path.join root "entries")
  FileAction.createFolders (Path.join root "chunks")
  return { root }

/-- The result under a fingerprint. -/
def lookup (cache : Cache) (tree : FileTree) (fingerprint : Fingerprint) : Option CacheEntry := do
  let bytes ← (tree.read (cache.entryPath fingerprint)).toOption
  let entry ← (Json.ofBytes? bytes).bind CacheEntry.ofJson?
  if entry.fingerprint == fingerprint.text then some entry else none

/-- The list of the fingerprints of a chunk. -/
def index? (cache : Cache) (tree : FileTree) (chunkId : String) : Option ChunkIndex := do
  let bytes ← (tree.read (cache.indexPath chunkId)).toOption
  (Json.ofBytes? bytes).bind ChunkIndex.ofJson?

/-- Adds a fingerprint to the list of a chunk. -/
def addToIndex (cache : Cache) (chunkId : String) (fingerprint : Fingerprint) : FileAction Unit := do
  let index := (cache.index? (← get) chunkId).getD { chunkId, fingerprints := [] }
  if fingerprint.text ∈ index.fingerprints then return
  let grown := { index with fingerprints := index.fingerprints ++ [fingerprint.text] }
  FileAction.writeJson (cache.indexPath chunkId) grown.toJson

/-- Keeps a result, in place of one under the same fingerprint. -/
def store (cache : Cache) (key : CacheKey) (result : Json) (now : Nat) : FileAction CacheEntry := do
  let entry := CacheEntry.ofKey key result now
  FileAction.writeJson (cache.entryPath key.fingerprint) entry.toJson
  cache.addToIndex key.indexId key.fingerprint
  return entry

/-- Keeps a result unless there is one under its fingerprint, and tells whether it was kept. -/
def storeIfMissing (cache : Cache) (key : CacheKey) (result : Json) (now : Nat) : FileAction Bool := do
  if (cache.lookup (← get) key.fingerprint).isSome then return false
  let _ ← cache.store key result now
  return true

/-- Removes the results under some fingerprints, and counts those that were there.  What is no
fingerprint is passed over. -/
def removeEntries (cache : Cache) : List String → FileAction Nat
  | [] => return 0
  | text :: rest =>
    match Fingerprint.ofText? text with
    | none => cache.removeEntries rest
    | some fingerprint => do
      let removed ← FileAction.removeIfThere (cache.entryPath fingerprint)
      let others ← cache.removeEntries rest
      return (if removed then 1 else 0) + others

/-- Removes all results of a chunk and of its parts, and counts them. -/
def invalidate (cache : Cache) (chunkId : String) : FileAction Nat := do
  let id := parentId chunkId
  match cache.index? (← get) id with
  | none => return 0
  | some index =>
    let removed ← cache.removeEntries index.fingerprints
    let _ ← FileAction.removeIfThere (cache.indexPath id)
    return removed

/-- Whether a file was left behind by a write that did not finish. -/
def isLeftover (path : String) : Bool :=
  ((Path.fileName? path).getD "").endsWith Path.temporaryEnding

/-- Removes files that writes which did not finish have left behind, and counts them. -/
def close (cache : Cache) : FileAction Nat := do
  match (← get).find cache.root with
  | .error .notFound => return 0
  | .error e => throw e
  | .ok (.file _) => throw .notFolder
  | .ok (.folder _) =>
    let leftovers := ((← get).listing cache.root).filter isLeftover
    leftovers.forM fun path => FileAction.remove (Path.join cache.root path)
    return leftovers.length

/-!
## Interrupted stores

A result is stored by two atomic writes, that of its own file and that of the list of its chunk.
Each of them can be interrupted, and the second one may never be begun.
-/

/-- The list of a chunk, which has no fingerprints if there is none. -/
def listOf (cache : Cache) (tree : FileTree) (chunkId : String) : ChunkIndex :=
  (cache.index? tree chunkId).getD { chunkId, fingerprints := [] }

/-- The list of a chunk with one more fingerprint. -/
def grownList (cache : Cache) (tree : FileTree) (chunkId : String) (fingerprint : Fingerprint) :
    ChunkIndex :=
  let index := cache.listOf tree chunkId
  { index with fingerprints := index.fingerprints ++ [fingerprint.text] }

/-- What storing a result leaves behind if it is interrupted. -/
inductive StoreInterrupted (cache : Cache) (key : CacheKey) (result : Json) (now : Nat) :
    FileTree → FileTree → Prop where
  /-- The file of the result was being written, or the list was not yet begun. -/
  | inEntry {tree next : FileTree}
    (h : FileTree.WriteInterrupted (cache.entryPath key.fingerprint)
      (Text.bytesOf (CacheEntry.ofKey key result now).toJson.pretty) tree next) :
    StoreInterrupted cache key result now tree next
  /-- The list of the chunk was being written. -/
  | inIndex {tree middle next : FileTree}
    (hentry : FileAction.writeJson (cache.entryPath key.fingerprint)
      (CacheEntry.ofKey key result now).toJson tree = (.ok (), middle))
    (hnew : key.fingerprint.text ∉ (cache.listOf middle key.indexId).fingerprints)
    (h : FileTree.WriteInterrupted (cache.indexPath key.indexId)
      (Text.bytesOf (cache.grownList middle key.indexId key.fingerprint).toJson.pretty) middle next) :
    StoreInterrupted cache key result now tree next

end Cache

end Scrutiny
