import Scrutiny.Proofs.Files.Place
import Scrutiny.Proofs.Json.Records
import Scrutiny.Proofs.Rationale.Store
import Scrutiny.Proofs.Text.Utf8

/-!
# Records that survive the disk

A store that was put together by insertions is the map from the ids of chunks to the last entry for
each of them, and lists it in the order of the bytes of the ids.  After it was saved, it is loaded as
it was.
-/

namespace Scrutiny

open Json

/-- In a tree without files, nothing stands where a file is to be written. -/
theorem FileTree.isFree_empty (front : List String) (folder name : String) :
  FileTree.empty.IsFree [] front folder name
  := by
  have hfolder (first : String) (rest : List String) : ¬ FileTree.empty.IsFolderAt (first :: rest) := by
    rintro ⟨entries, h⟩
    cases h
  constructor
  · rintro (_ | ⟨first, rest⟩) - <;> rfl
  · cases front <;> apply hfolder
  · cases front <;> apply hfolder

namespace RationaleStore

variable {store : RationaleStore} {tree next : FileTree} {path : String}

/-! ### The entry for a chunk -/

/-- The entry under an id. -/
def valueAt? (id : String) (entries : List (String × RationaleEntry)) : Option RationaleEntry :=
  (entries.find? (·.1 == id)).map (·.2)

/-- The entry for a chunk. -/
def entryFor? (store : RationaleStore) (chunkId : String) : Option RationaleEntry :=
  valueAt? chunkId store.entries

theorem valueAt?_cons (id key : String) (entry : RationaleEntry)
    (entries : List (String × RationaleEntry)) :
  valueAt? id ((key, entry) :: entries) = if key = id then some entry else valueAt? id entries
  := by
  by_cases h : key = id <;> simp [valueAt?, h]

/-- What was put under an id is found there, and nothing else has changed. -/
theorem valueAt?_put (id key : String) (entry : RationaleEntry)
    (entries : List (String × RationaleEntry)) :
  valueAt? id (put key entry entries) = if key = id then some entry else valueAt? id entries
  := by
  induction entries with
  | nil => apply valueAt?_cons
  | cons first rest ih =>
      obtain ⟨other, value⟩ := first
      rw [put]
      by_cases hkey : key = other
      · subst hkey
        rw [if_pos (beq_self_eq_true key), valueAt?_cons, valueAt?_cons]
        split_ifs <;> rfl
      · rw [if_neg (beq_iff_eq.not.mpr hkey)]
        by_cases hless : key < other
        · rw [if_pos hless, valueAt?_cons]
        · rw [if_neg hless, valueAt?_cons, valueAt?_cons, ih]
          split_ifs with hother hid
          · cases hkey (hid.trans hother.symm)
          all_goals rfl

theorem entryFor?_insert (store : RationaleStore) (entry : RationaleEntry) (id : String) :
  (store.insert entry).entryFor? id = if entry.chunkId = id then some entry else store.entryFor? id
  := valueAt?_put id entry.chunkId entry store.entries

/-- The last entry that was inserted for a chunk counts. -/
theorem entryFor?_foldl_insert (store : RationaleStore) (entries : List RationaleEntry) (id : String) :
  (entries.foldl insert store).entryFor? id
    = (entries.reverse.find? (·.chunkId == id)).or (store.entryFor? id)
  := by
  induction entries generalizing store with
  | nil => rfl
  | cons first rest ih =>
      rw [List.foldl_cons, ih, entryFor?_insert, List.reverse_cons, List.find?_append]
      cases rest.reverse.find? (·.chunkId == id) with
      | some last => rfl
      | none => by_cases h : first.chunkId = id <;> simp [h]

/-! ### Entries under their ids -/

/-- Each entry stands under the id of its chunk. -/
def IsKeyed (store : RationaleStore) : Prop :=
  ∀ field ∈ store.entries, field.1 = field.2.chunkId

theorem isKeyed_empty :
  empty.IsKeyed
  := List.forall_mem_nil _

theorem IsKeyed.insert (h : store.IsKeyed) (entry : RationaleEntry) :
  (store.insert entry).IsKeyed
  := by
  intro field hfield
  rcases mem_put hfield with rfl | hold
  · rfl
  · apply h field hold

theorem IsKeyed.foldl_insert (h : store.IsKeyed) (entries : List RationaleEntry) :
  (entries.foldl RationaleStore.insert store).IsKeyed
  := by
  induction entries generalizing store with
  | nil => apply h
  | cons first rest ih => apply ih (h.insert first)

/-- Without a text to look for, all entries are listed. -/
theorem matching_none (store : RationaleStore) :
  store.matching none = store.entries.map (·.2)
  := by
  have hneedle : (Text.lower (Text.trim "".toList)).isEmpty = true := by decide
  rw [matching, Option.getD_none]
  simp only [hneedle, Bool.true_or, List.filter_true]

/-- The entries are listed in the order of the bytes of their ids. -/
theorem pairwise_matching_none (hordered : store.IsOrdered) (hkeyed : store.IsKeyed) :
  (store.matching none).Pairwise fun a b => Text.bytesOf a.chunkId < Text.bytesOf b.chunkId
  := by
  rw [matching_none, List.pairwise_map]
  apply hordered.imp_of_mem
  intro field other hfield hother hlt
  rw [Text.bytesOf_lt_bytesOf_iff, ← hkeyed field hfield, ← hkeyed other hother]
  apply hlt

/-! ### Saved stores -/

/-- A store that was saved is loaded as it was. -/
theorem load_of_save (h : store.IsOrdered) (hsound : tree.Sound)
    (hsave : store.save path tree = (.ok (), next)) :
  load next path = store
  := by
  have hread := (FileAction.replaces_of_writeAtomic hsound hsave).read_eq
  rw [load, hread]
  apply ofBytes_pretty h

/-- The store is the map from the ids of chunks to the last of some entries for each of them, and
lists these in the order of the bytes of the ids. -/
structure IsMapOf (entries : List RationaleEntry) (store : RationaleStore) : Prop where
  keyed : store.IsKeyed
  entryFor?_eq : ∀ id, store.entryFor? id = entries.reverse.find? (·.chunkId == id)
  matching_eq : store.matching none = store.entries.map (·.2)
  ordered : (store.matching none).Pairwise fun a b => Text.bytesOf a.chunkId < Text.bytesOf b.chunkId

theorem isMapOf_foldl_insert (entries : List RationaleEntry) :
  IsMapOf entries (entries.foldl insert empty)
  := by
  have hkeyed := isKeyed_empty.foldl_insert entries
  use hkeyed
  · intro id
    rw [entryFor?_foldl_insert]
    apply Option.or_none
  · apply matching_none
  · apply pairwise_matching_none (isOrdered_empty.foldl_insert entries) hkeyed

end RationaleStore

open RationaleStore

/-- Stores, chunks and issues survive the disk.  The store of any entries that were inserted can be
saved where nothing stands in the way, is loaded as it was wherever it was saved, and is the map of
the last entry for each chunk; a chunk and an issue are read from what they are written as. -/
theorem records_survive (entries : List RationaleEntry) {tree : FileTree} (hsound : tree.Sound)
    {chunk : Chunk} (hstart : chunk.startLine < 2 ^ 64) {issue : Issue}
    (hoffset : issue.lineOffset < 2 ^ 64)
    (hline : ∀ line, issue.absoluteLine = some line → line < 2 ^ 64) :
  (∀ path next, (entries.foldl insert empty).save path tree = (.ok (), next)
      → load next path = entries.foldl insert empty)
    ∧ (∀ root front folder name, FileTree.IsPlace front folder name → tree.HasFolder root
      → tree.IsFree (tree.base root) front folder name
      → ∃ next, (entries.foldl insert empty).save (FileTree.placePath root front folder name) tree
        = (.ok (), next))
    ∧ IsMapOf entries (entries.foldl insert empty)
    ∧ IsReadAs Chunk.ofJson? chunk.toJson chunk
    ∧ IsReadAs Issue.ofJson? issue.toJson issue
  := by
  refine ⟨?_, ?_, isMapOf_foldl_insert entries, Chunk.isReadAs_toJson hstart,
    Issue.isReadAs_toJson hoffset hline⟩
  · intro path next hsave
    apply load_of_save (isOrdered_empty.foldl_insert entries) hsound hsave
  · intro root front folder name hplace hroot hfree
    apply hplace.exists_writeAtomic hroot hfree

theorem isPlace_notes :
  FileTree.IsPlace [] "notes" "why.json"
  := by
  constructor
  · simp only [List.nil_append, List.forall_mem_cons]
    refine ⟨⟨by decide, by decide⟩, ⟨by decide, by decide⟩, by simp⟩
  · simp only [List.nil_append, List.forall_mem_singleton]
    decide
  · decide

/-- Three entries for two chunks, with a quotation mark in one id and a character of four bytes in the
other. -/
def noteEntries : List RationaleEntry :=
  [⟨"a.py:𝄞", "a.py", "𝄞", "function", "old", "now"⟩,
    ⟨"a.py:\"\\", "a.py", "\"\\", "class", "line\nline", "now"⟩,
    ⟨"a.py:𝄞", "a.py", "𝄞", "function", "new\u0007", "later"⟩]

theorem records_survive_notes :
  ∃ next, (noteEntries.foldl RationaleStore.insert empty).save "/notes/why.json" .empty = (.ok (), next)
    ∧ ((load next "/notes/why.json").matching none).map (fun entry => (entry.chunkId, entry.rationale))
      = [("a.py:\"\\", "line\nline"), ("a.py:𝄞", "new\u0007")]
    ∧ IsReadAs Chunk.ofJson? (Chunk.ofFile "a.py" "𝄞" "def 𝄞(): \"\"" 7 .function).toJson
      (Chunk.ofFile "a.py" "𝄞" "def 𝄞(): \"\"" 7 .function)
    ∧ IsReadAs Issue.ofJson? (Issue.toJson ⟨"bug", .high, "\t𝄞", none, 3, some 11⟩)
      ⟨"bug", .high, "\t𝄞", none, 3, some 11⟩
  := by
  have hstart : (Chunk.ofFile "a.py" "𝄞" "def 𝄞(): \"\"" 7 .function).startLine < 2 ^ 64 := by
    simp [Chunk.ofFile]
  have hoffset : (⟨"bug", .high, "\t𝄞", none, 3, some 11⟩ : Issue).lineOffset < 2 ^ 64 := by simp
  obtain ⟨hload, hexists, hmap, hchunk, hissue⟩ :=
    records_survive noteEntries FileTree.sound_empty hstart hoffset (by simp)
  have hpath : FileTree.placePath "/" [] "notes" "why.json" = "/notes/why.json" := by decide +kernel
  have hbase : FileTree.empty.base "/" = [] := by decide +kernel
  have hfree : FileTree.empty.IsFree (FileTree.empty.base "/") [] "notes" "why.json" := by
    rw [hbase]
    apply FileTree.isFree_empty
  obtain ⟨next, hsave⟩ := hexists "/" [] "notes" "why.json" isPlace_notes
    ⟨FileTree.sound_empty, rfl, ⟨[], rfl⟩⟩ hfree
  rw [hpath] at hsave
  use next, hsave
  refine ⟨?_, hchunk, hissue⟩
  rw [hload _ next hsave, hmap.matching_eq]
  decide +kernel

end Scrutiny
