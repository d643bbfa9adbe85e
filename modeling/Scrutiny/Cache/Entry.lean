import Scrutiny.Chunk.Basic
import Scrutiny.Digest.Sha256
import Scrutiny.Json.Reader
import Scrutiny.Json.Value

/-!
# Entries of the cache

The address of a result, and what is kept there.
-/

/-!
## Fingerprints

The address of one result: the digest of the text that was reviewed, of the reviewer, of the
model and of the bound on the length of its reply.  Each of these parts has its length in
bytes in front of it, so that no two different lists of parts give the same bytes.
-/

namespace Scrutiny

/-- The address of a result in the cache: 64 hexadecimal digits. -/
structure Fingerprint where
  /-- The digits. -/
  text : String
  deriving DecidableEq, Repr, Inhabited

namespace Fingerprint

/-- The number as `count` bytes, the lowest first. -/
def lowFirst : (count n : Nat) → List UInt8
  | 0, _ => []
  | count + 1, n => UInt8.ofNat (n % 256) :: lowFirst count (n / 256)

/-- The bytes of a part with their number in front. -/
def part (text : String) : List UInt8 :=
  let bytes := Text.bytesOf text
  lowFirst 8 bytes.length ++ bytes

/-- The text of a bound on the length of a reply. -/
def boundText : Option Nat → String
  | some n => toString n
  | none => "none"

/-- The bytes that a fingerprint is the digest of. -/
def input (source reviewer model : String) (maxTokens : Option Nat) : List UInt8 :=
  [source, reviewer, model, boundText maxTokens].flatMap part

/-- The fingerprint of a review. -/
def compute (source reviewer model : String) (maxTokens : Option Nat) : Fingerprint :=
  ⟨Sha256.hex (Sha256.digest (input source reviewer model maxTokens))⟩

/-- Whether a character is a hexadecimal digit as fingerprints have them. -/
def isDigit (c : Char) : Bool :=
  c.isDigit || ('a' ≤ c && c ≤ 'f')

/-- The fingerprint with the given digits. -/
def ofText? (text : String) : Option Fingerprint :=
  if text.length == 64 && text.toList.all isDigit then some ⟨text⟩ else none

/-- The names of the two folders that an entry is stored in. -/
def shards (fingerprint : Fingerprint) : String × String :=
  let digits := fingerprint.text.toList
  (String.ofList (digits.take 2), String.ofList ((digits.drop 2).take 2))

end Fingerprint

end Scrutiny

/-!
## Cache entries

What the cache keeps of one review, and the list of the fingerprints that belong to one chunk,
with their form as JSON.
-/

namespace Scrutiny

/-- What a review is filed under. -/
structure CacheKey where
  /-- The address of the result. -/
  fingerprint : Fingerprint
  /-- The chunk that was reviewed. -/
  chunkId : String
  /-- The reviewer. -/
  reviewer : String
  /-- The model that the reviewer asked. -/
  model : String
  deriving DecidableEq, Repr, Inhabited

namespace CacheKey

/-- The key of a review of a text. -/
def ofText (source chunkId reviewer model : String) (maxTokens : Option Nat) : CacheKey :=
  { fingerprint := .compute source reviewer model maxTokens, chunkId, reviewer, model }

/-- The key of a review of a chunk. -/
def ofChunk (chunk : Chunk) (reviewer model : String) (maxTokens : Option Nat) : CacheKey :=
  ofText chunk.text chunk.id reviewer model maxTokens

/-- The chunk that the entry is listed under. -/
def indexId (key : CacheKey) : String :=
  parentId key.chunkId

end CacheKey

/-- One result in the cache. -/
structure CacheEntry where
  /-- The digits of the fingerprint. -/
  fingerprint : String
  /-- The chunk that was reviewed. -/
  chunkId : String
  /-- The reviewer. -/
  reviewer : String
  /-- The model that the reviewer asked. -/
  model : String
  /-- What the review gave. -/
  result : Json
  /-- The time of the review, in seconds. -/
  createdAt : Nat
  deriving Repr, Inhabited

namespace CacheEntry

/-- The entry for a result. -/
def ofKey (key : CacheKey) (result : Json) (now : Nat) : CacheEntry :=
  { fingerprint := key.fingerprint.text, chunkId := key.chunkId, reviewer := key.reviewer,
    model := key.model, result, createdAt := now }

/-- The entry as a JSON value. -/
def toJson (entry : CacheEntry) : Json :=
  .object [("fingerprint", .string entry.fingerprint), ("chunk_id", .string entry.chunkId),
    ("wear_id", .string entry.reviewer), ("model_name", .string entry.model),
    ("result", entry.result), ("created_at", Json.nat entry.createdAt)]

/-- The entry that a JSON value stands for. -/
def ofJson? (json : Json) : Option CacheEntry := do
  match ← json.parts?
    ["fingerprint", "chunk_id", "wear_id", "model_name", "result", "created_at"] with
  | [fingerprint, chunkId, reviewer, model, result, createdAt] =>
    return { fingerprint := ← fingerprint.bind Json.string?
             chunkId := ← chunkId.bind Json.string?
             reviewer := ← reviewer.bind Json.string?
             model := ← model.bind Json.string?
             result := (← result).normal
             createdAt := ← createdAt.bind (Json.unsigned? 64) }
  | _ => none

end CacheEntry

/-- The fingerprints of the entries of one chunk. -/
structure ChunkIndex where
  /-- The chunk. -/
  chunkId : String
  /-- The digits of the fingerprints, in the order of their entries. -/
  fingerprints : List String
  deriving DecidableEq, Repr, Inhabited

namespace ChunkIndex

/-- The list as a JSON value. -/
def toJson (index : ChunkIndex) : Json :=
  .object [("chunk_id", .string index.chunkId),
    ("fingerprints", .array (index.fingerprints.map Json.string))]

/-- The list that a JSON value stands for. -/
def ofJson? (json : Json) : Option ChunkIndex := do
  match ← json.parts? ["chunk_id", "fingerprints"] with
  | [chunkId, fingerprints] =>
    return { chunkId := ← chunkId.bind Json.string?
             fingerprints := ← (← fingerprints.bind Json.array?).mapM Json.string? }
  | _ => none

end ChunkIndex

/-- The JSON value in the bytes of a file, with its fields as they stand. -/
def Json.ofBytes? (bytes : List UInt8) : Option Json := do
  let text ← Text.text? bytes
  (Json.readFaithfully text.toList).toOption

end Scrutiny
