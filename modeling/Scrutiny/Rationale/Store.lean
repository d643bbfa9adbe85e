import Scrutiny.Cache.Entry
import Scrutiny.Digest.Sha256
import Scrutiny.Files.Atomic
import Scrutiny.Text.Lines
import Scrutiny.Text.Lower

/-!
# The rationale store

What was found out about why each chunk of a project is as it is.  The entries of one project
are kept in one file, under the ids of their chunks and in the order of these ids.
-/

namespace Scrutiny

open Text

/-- Why one chunk is as it is. -/
structure RationaleEntry where
  /-- The chunk. -/
  chunkId : String
  /-- The path of its file. -/
  filePath : String
  /-- The name of its definition. -/
  name : String
  /-- Its kind. -/
  kind : String
  /-- The explanation. -/
  rationale : String
  /-- The time of the explanation. -/
  extractedAt : String
  deriving DecidableEq, Repr, Inhabited

namespace RationaleEntry

/-- The entry as a JSON value. -/
def toJson (entry : RationaleEntry) : Json :=
  .object [("chunk_id", .string entry.chunkId), ("file_path", .string entry.filePath),
    ("qualified_name", .string entry.name), ("kind", .string entry.kind),
    ("rationale", .string entry.rationale), ("extracted_at", .string entry.extractedAt)]

/-- The entry that a JSON value stands for. -/
def ofJson? (json : Json) : Option RationaleEntry := do
  match ← json.parts?
    ["chunk_id", "file_path", "qualified_name", "kind", "rationale", "extracted_at"] with
  | [chunkId, filePath, name, kind, rationale, extractedAt] =>
    return { chunkId := ← chunkId.bind Json.string?
             filePath := ← filePath.bind Json.string?
             name := ← name.bind Json.string?
             kind := ← kind.bind Json.string?
             rationale := ← rationale.bind Json.string?
             extractedAt := ← extractedAt.bind Json.string? }
  | _ => none

end RationaleEntry

/-- The entries of a project, under ids and in their order. -/
structure RationaleStore where
  /-- The entries. -/
  entries : List (String × RationaleEntry)
  deriving DecidableEq, Repr, Inhabited

namespace RationaleStore

/-- A store without entries. -/
def empty : RationaleStore := { entries := [] }

/-- The entries with one put under an id. -/
def put (id : String) (entry : RationaleEntry) :
    List (String × RationaleEntry) → List (String × RationaleEntry)
  | [] => [(id, entry)]
  | (key, value) :: rest =>
    if id == key then (key, entry) :: rest
    else if id < key then (id, entry) :: (key, value) :: rest
    else (key, value) :: put id entry rest

/-- The store with an entry, in place of one for the same chunk. -/
def insert (store : RationaleStore) (entry : RationaleEntry) : RationaleStore :=
  { entries := put entry.chunkId entry store.entries }

/-- Whether there is an entry for a chunk. -/
def contains (store : RationaleStore) (chunkId : String) : Bool :=
  store.entries.any (·.1 == chunkId)

/-- The number of entries. -/
def size (store : RationaleStore) : Nat :=
  store.entries.length

/-- The entries that have a text in their id or in their explanation, whatever the case of its
letters; without a text, all of them. -/
def matching (store : RationaleStore) (filter : Option String) : List RationaleEntry :=
  let needle := lower (trim (filter.getD "").toList)
  (store.entries.map (·.2)).filter fun entry =>
    needle.isEmpty || hasInside needle (lower entry.chunkId.toList)
      || hasInside needle (lower entry.rationale.toList)

/-- The store as a JSON value. -/
def toJson (store : RationaleStore) : Json :=
  .object (store.entries.map fun (id, entry) => (id, entry.toJson))

/-- The store that a JSON value stands for. -/
def ofJson? (json : Json) : Option RationaleStore := do
  let fields ← json.object?
  let entries ← fields.mapM fun (id, value) => (RationaleEntry.ofJson? value).map fun entry => (id, entry)
  return { entries := entries.foldl (fun sorted (id, entry) => put id entry sorted) [] }

/-- The file of the store of a project. -/
def pathFor (dataFolder project : String) : String :=
  Path.join (Path.join dataFolder "rationale") (Sha256.shortOfText project ++ ".json")

/-- The store in a file; a file that cannot be read has no entries. -/
def load (tree : FileTree) (path : String) : RationaleStore :=
  match tree.read path with
  | .error _ => empty
  | .ok bytes => ((Json.ofBytes? bytes).bind ofJson?).getD empty

/-- Writes the store to a file. -/
def save (store : RationaleStore) (path : String) : FileAction Unit :=
  FileAction.writeJson path store.toJson

end RationaleStore

end Scrutiny
