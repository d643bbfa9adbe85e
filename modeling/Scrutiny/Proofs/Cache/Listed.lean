import Scrutiny.Proofs.Cache.HoldsOnly

/-!
# Lists of a cache

The lists of chunks only grow while results are stored, whatever comes of it.  A result that is listed
under a chunk is gone after the results of this chunk were removed, whatever else was removed before.
-/

namespace Scrutiny.Cache

open FileTree

variable {cache : Cache} {tree next last : FileTree}

/-! ### Lists that grow -/

/-- The folder of the cache is there, and no list has lost a fingerprint. -/
structure Grows (cache : Cache) (tree next : FileTree) : Prop where
  hasFolder : next.HasFolder cache.root
  subset : ∀ id, (cache.listOf tree id).fingerprints ⊆ (cache.listOf next id).fingerprints

theorem Grows.refl (h : tree.HasFolder cache.root) :
  cache.Grows tree tree
  := ⟨h, fun _ => List.Subset.refl _⟩

theorem Grows.trans (h : cache.Grows tree next) (h' : cache.Grows next last) :
  cache.Grows tree last
  := ⟨h'.hasFolder, fun id => List.Subset.trans (h.subset id) (h'.subset id)⟩

/-- Lists that stay have lost nothing. -/
theorem grows_of_listOf_eq (h : next.HasFolder cache.root)
    (hlists : ∀ id, cache.listOf next id = cache.listOf tree id) :
  cache.Grows tree next
  := by
  use h
  intro id
  rw [hlists]
  apply List.Subset.refl

theorem grows_of_writeJson_entryPath (hroot : tree.HasFolder cache.root) {key : CacheKey}
    (hkey : key.fingerprint.IsValid) {value : Json} {result : Except FileError Unit}
    (h : FileAction.writeJson (cache.entryPath key.fingerprint) value tree = (result, next)) :
  cache.Grows tree next
  := by
  obtain ⟨hwritten, -⟩ :=
    FileAction.oldOrNew_of_writeAtomic hroot.sound (cache.fileName?_entryPath hkey) h
  apply grows_of_listOf_eq (hroot.of_keeps hwritten.toKeeps)
  apply (of_oldOrNew_entry (isOpen_of_hasFolder hroot) hkey hwritten).2.2

/-- A list that is written has the fingerprint that was added to it. -/
theorem grows_of_addToIndex (hroot : tree.HasFolder cache.root) {id : String}
    {fingerprint : Fingerprint} {result : Except FileError Unit}
    (h : cache.addToIndex id fingerprint tree = (result, next)) :
  cache.Grows tree next
    ∧ (result = .ok () → fingerprint.text ∈ (cache.listOf next id).fingerprints)
  := by
  rw [addToIndex_eq] at h
  split at h
  · rename_i hmem
    obtain ⟨-, rfl⟩ := Prod.mk.inj h
    exact ⟨.refl hroot, fun _ => hmem⟩
  · obtain ⟨hwritten, hread⟩ :=
      FileAction.oldOrNew_of_writeAtomic hroot.sound (cache.fileName?_indexPath id) h
    have hroot' := hroot.of_keeps hwritten.toKeeps
    use ⟨hroot', (of_oldOrNew_index (isOpen_of_hasFolder hroot) hwritten).2⟩
    intro hok
    have hopen' := isOpen_of_hasFolder hroot'
    have hlist : cache.files next (indexNames id) = some (cache.grownList tree id fingerprint).bytes := by
      rw [files, ← toOption_read_indexPath cache hopen'.sound hopen'.reaches, hread hok]
      rfl
    rw [fingerprints_listOf hopen', hlist, Option.bind_some, ChunkIndex.ofBytes?_bytes]
    apply List.mem_append_right _ (List.mem_singleton_self _)

/-- The lists stay if only files are written that are called otherwise. -/
theorem grows_of_spares (hroot : tree.HasFolder cache.root)
    (h : FileTree.Spares resultNames tree next) :
  cache.Grows tree next
  := by
  have hroot' := hroot.of_keeps h.toKeeps
  apply grows_of_listOf_eq hroot'
  intro id
  rw [listOf_eq (isOpen_of_hasFolder hroot'), listOf_eq (isOpen_of_hasFolder hroot), files, files,
    h.base_eq, h.file?_eq]
  use tree.base cache.root ++ ["chunks", String.ofList ((Sha256.ofText id).toList.take 2)],
    ⟨Sha256.ofText id⟩, Fingerprint.isValid_digest id
  rw [List.append_assoc]
  rfl

/-! ### Removing what is listed -/

/-- There is no file of a result, or the result is listed under an id. -/
def IsGoneOrListed (cache : Cache) (fingerprint : Fingerprint) (id : String) (tree : FileTree) : Prop :=
  cache.files tree (entryNames fingerprint) = none
    ∨ fingerprint.text ∈ (cache.listOf tree id).fingerprints

/-- What is gone is not brought back when other results are removed. -/
theorem files_of_invalidate_eq_none (hopen : cache.IsOpen tree) {fingerprint : Fingerprint}
    (hgone : cache.files tree (entryNames fingerprint) = none) {chunkId : String} {count : Nat}
    (h : cache.invalidate chunkId tree = (.ok count, next)) :
  cache.files next (entryNames fingerprint) = none
  := by
  rcases of_invalidate_eq_ok hopen h with ⟨-, rfl⟩ | ⟨index, middle, removed, -, hremove, -, hfiles⟩
  · apply hgone
  · obtain ⟨-, -, hnone, -⟩ := files_of_removeEntries hopen hremove
    rw [hfiles, Function.update_of_ne (entryNames_ne_indexNames _ _), hnone _ hgone]

/-- What is listed under an id stays listed until it is gone, and is gone after the results of the id
were removed. -/
theorem of_invalidate_of_isGoneOrListed (hopen : cache.IsOpen tree) {fingerprint : Fingerprint}
    (hvalid : fingerprint.IsValid) {id : String} (hlisted : cache.IsGoneOrListed fingerprint id tree)
    {chunkId : String} {count : Nat} (h : cache.invalidate chunkId tree = (.ok count, next)) :
  cache.IsOpen next ∧ cache.IsGoneOrListed fingerprint id next
    ∧ (parentId chunkId = id → cache.files next (entryNames fingerprint) = none)
  := by
  rcases of_invalidate_eq_ok hopen h with
    ⟨hindex, rfl⟩ | ⟨index, middle, removed, hindex, hremove, hopen', hfiles⟩
  · use hopen, hlisted
    rintro rfl
    apply hlisted.resolve_right
    rw [listOf, hindex]
    apply List.not_mem_nil
  · obtain ⟨-, hgone, -, hsame⟩ := files_of_removeEntries hopen hremove
    have hlist : (cache.listOf tree (parentId chunkId)).fingerprints = index.fingerprints := by
      rw [listOf, hindex]
      rfl
    have hremoved (hmem : fingerprint.text ∈ (cache.listOf tree (parentId chunkId)).fingerprints) :
        cache.files next (entryNames fingerprint) = none := by
      rw [hfiles, Function.update_of_ne (entryNames_ne_indexNames _ _)]
      apply hgone fingerprint hvalid
      rwa [← hlist]
    use hopen'
    rcases hlisted with hlisted | hlisted
    · have hstays := files_of_invalidate_eq_none hopen hlisted h
      exact ⟨.inl hstays, fun _ => hstays⟩
    · -- The lists of both ids may be in one file.
      by_cases hfile : indexNames id = indexNames (parentId chunkId)
      · rw [fingerprints_listOf hopen, hfile, ← fingerprints_listOf hopen] at hlisted
        exact ⟨.inl (hremoved hlisted), fun _ => hremoved hlisted⟩
      · constructor
        · right
          rw [fingerprints_listOf hopen', hfiles, Function.update_of_ne hfile,
            hsame _ fun other => (entryNames_ne_indexNames other id).symm, ← fingerprints_listOf hopen]
          apply hlisted
        · intro heq
          cases hfile (by rw [heq])

end Scrutiny.Cache
