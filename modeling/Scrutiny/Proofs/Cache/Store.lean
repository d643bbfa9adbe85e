import Mathlib.Logic.Function.Basic
import Scrutiny.Proofs.Cache.Entry
import Scrutiny.Proofs.Cache.Names

/-!
# What operations on the cache do to its files

An operation that succeeds has set or removed the files of the results and lists that it is
about, and no others.  Storing a result sets its file and, unless the fingerprint is listed
already, the list of its chunk; the temporary files that are written on the way are gone.
-/

namespace Scrutiny.Cache

open FileAction

variable {cache : Cache} {tree next : FileTree}

/-- The files of a cache by the names that lead to them from its folder on. -/
def files (cache : Cache) (tree : FileTree) (names : List String) : Option (List UInt8) :=
  tree.file? (tree.base cache.root ++ names)

/-- The folder of the cache can be reached. -/
structure IsOpen (cache : Cache) (tree : FileTree) : Prop where
  sound : tree.Sound
  reaches : tree.Reaches cache.root

theorem IsOpen.of_keeps (h : cache.IsOpen tree) (hkeeps : tree.Keeps next) :
  cache.IsOpen next
  := ⟨hkeeps.sound, hkeeps.reaches h.reaches⟩

theorem lookup_eq (h : cache.IsOpen tree) {fingerprint : Fingerprint}
    (hvalid : fingerprint.IsValid) :
  cache.lookup tree fingerprint
    = ((cache.files tree (entryNames fingerprint)).bind CacheEntry.ofBytes?).bind
      fun entry => if entry.fingerprint == fingerprint.text then some entry else none
  := by
  rw [lookup, toOption_read_entryPath cache h.sound h.reaches hvalid, files]
  cases tree.file? (tree.base cache.root ++ entryNames fingerprint) <;> rfl

theorem index?_eq (h : cache.IsOpen tree) (chunkId : String) :
  cache.index? tree chunkId = (cache.files tree (indexNames chunkId)).bind ChunkIndex.ofBytes?
  := by
  rw [index?, toOption_read_indexPath cache h.sound h.reaches, files]
  rfl

/-! ### Writing and removing one file -/

/-- No file of the cache is a temporary one. -/
def IsTidy (cache : Cache) (tree : FileTree) : Prop :=
  ∀ names, IsTemporary (tree.base cache.root ++ names) → cache.files tree names = none

/-- A file that was written as a whole is set, and the temporary file is gone. -/
theorem files_of_replaces (htidy : cache.IsTidy tree) {path : String} {names : List String}
    (hnames : tree.namesOf path = tree.base cache.root ++ names)
    (hproper : ¬ IsTemporary (tree.base cache.root ++ names))
    (htemporary : IsTemporary (tree.namesOf (Path.temporary path))) {bytes : List UInt8}
    (h : Replaces path bytes tree next) :
  cache.files next = Function.update (cache.files tree) names (some bytes)
  := by
  have hne : tree.namesOf (Path.temporary path) ≠ tree.namesOf path := by
    intro heq
    rw [heq, hnames] at htemporary
    apply hproper htemporary
  funext others
  rw [files, h.base_eq]
  by_cases hothers : others = names
  · obtain ⟨found, hresolve, hfile⟩ := FileTree.read_eq_ok_iff.mp h.read_eq
    obtain ⟨rfl, -⟩ := FileTree.of_resolve_eq_ok h.sound hresolve
    rw [hothers, Function.update_self, ← hnames, ← h.namesOf_eq, hfile]
  · rw [Function.update_of_ne hothers]
    by_cases hgone : tree.base cache.root ++ others = tree.namesOf (Path.temporary path)
    · rw [hgone, h.file?_temporary hne, htidy]
      rw [hgone]
      apply htemporary
    · apply h.file?_eq _ _ hgone
      rw [hnames]
      intro heq
      apply hothers (List.append_cancel_left heq)

theorem files_of_replaces_entry (htidy : cache.IsTidy tree) {fingerprint : Fingerprint}
    (hvalid : fingerprint.IsValid) {bytes : List UInt8}
    (h : Replaces (cache.entryPath fingerprint) bytes tree next) :
  cache.files next = Function.update (cache.files tree) (entryNames fingerprint) (some bytes)
  := by
  apply files_of_replaces htidy (namesOf_entryPath cache tree hvalid) _
    (isTemporary_entryPath cache tree hvalid) h
  apply not_isTemporary_entryNames

theorem files_of_replaces_index (htidy : cache.IsTidy tree) {chunkId : String} {bytes : List UInt8}
    (h : Replaces (cache.indexPath chunkId) bytes tree next) :
  cache.files next = Function.update (cache.files tree) (indexNames chunkId) (some bytes)
  := by
  apply files_of_replaces htidy (namesOf_indexPath cache tree chunkId) _
    (isTemporary_indexPath cache tree chunkId) h
  apply not_isTemporary_indexNames

theorem files_of_sets {names : List String} {bytes? : Option (List UInt8)}
    (h : FileTree.Sets (tree.base cache.root ++ names) bytes? tree next) :
  cache.files next = Function.update (cache.files tree) names bytes?
  := by
  funext others
  rw [files, h.base_eq]
  by_cases hothers : others = names
  · rw [hothers, Function.update_self, h.file?_self]
  · rw [Function.update_of_ne hothers, h.file?_ne _ fun heq => hothers (List.append_cancel_left heq)]
    rfl

/-- A file that may be there is removed; the answer tells whether it was there. -/
theorem of_removeIfThere_eq_ok (hopen : cache.IsOpen tree) {path : String} {names : List String}
    (hnames : tree.namesOf path = tree.base cache.root ++ names)
    (hread : (tree.read path).toOption = cache.files tree names) {removed : Bool}
    (h : removeIfThere path tree = (.ok removed, next)) :
  tree.Keeps next ∧ cache.files next = Function.update (cache.files tree) names none
    ∧ removed = (cache.files tree names).isSome
  := by
  rcases of_removeIfThere hopen.sound h with ⟨rfl, ⟨bytes, hbytes⟩, hsets⟩ | ⟨rfl, rfl, hmissing⟩
  · rw [hnames] at hbytes hsets
    use hsets.toKeeps, files_of_sets hsets
    rw [files, hbytes]
    rfl
  · have hnone : cache.files tree names = none := by
      rw [← hread]
      cases hbytes : tree.read path with
      | error e => rfl
      | ok bytes => cases hmissing bytes hbytes
    use .refl hopen.sound
    rw [hnone]
    use (Function.update_eq_self_iff.mpr hnone.symm).symm
    rfl

/-- A file that can be read can be removed. -/
theorem exists_removeIfThere {path : String} {names : List String}
    (hread : (tree.read path).toOption = cache.files tree names)
    (hsome : (cache.files tree names).isSome) :
  ∃ next, removeIfThere path tree = (.ok true, next)
  := by
  rw [← hread] at hsome
  cases hbytes : tree.read path with
  | error e =>
      rw [hbytes] at hsome
      cases hsome
  | ok bytes =>
      obtain ⟨next, hremove⟩ := exists_remove_of_read hbytes
      use next
      have hboth : (remove path >>= fun _ => pure true) tree = (.ok true, next) :=
        bind_of_ok _ hremove
      rw [removeIfThere, tryCatch_eq, ExceptT.tryCatch, ExceptT.mk, state_bind_eq, hboth]
      rfl

/-! ### Storing -/

theorem of_addToIndex_eq_ok (hsound : tree.Sound) {chunkId : String} {fingerprint : Fingerprint}
    {index : ChunkIndex} (hindex : (cache.index? tree chunkId).getD ⟨chunkId, []⟩ = index)
    (h : cache.addToIndex chunkId fingerprint tree = (.ok (), next)) :
  (fingerprint.text ∈ index.fingerprints ∧ tree = next)
    ∨ (fingerprint.text ∉ index.fingerprints
      ∧ Replaces (cache.indexPath chunkId)
        (ChunkIndex.bytes
          { index with fingerprints := index.fingerprints ++ [fingerprint.text] }) tree next)
  := by
  obtain ⟨found, middle, hget, h⟩ := bind_eq_ok h
  obtain ⟨rfl, rfl⟩ := of_get_eq_ok hget
  dsimp only at h
  rw [hindex] at h
  by_cases hmem : fingerprint.text ∈ index.fingerprints
  · left
    rw [if_pos hmem] at h
    use hmem, (of_pure_eq_ok h).2
  · right
    rw [if_neg hmem] at h
    use hmem
    apply replaces_of_writeAtomic hsound h

/-- The steps of storing a result: its file is written, and then the list of its chunk. -/
theorem of_store_eq_ok (hsound : tree.Sound) {key : CacheKey} {result : Json} {now : Nat}
    {entry : CacheEntry} (h : cache.store key result now tree = (.ok entry, next)) :
  CacheEntry.ofKey key result now = entry
    ∧ ∃ middle, Replaces (cache.entryPath key.fingerprint) entry.bytes tree middle
      ∧ cache.addToIndex key.indexId key.fingerprint middle = (.ok (), next)
  := by
  obtain ⟨_, middle, hwrite, h⟩ := bind_eq_ok h
  obtain ⟨_, last, hadd, h⟩ := bind_eq_ok h
  obtain ⟨rfl, rfl⟩ := of_pure_eq_ok h
  use rfl, middle, replaces_of_writeAtomic hsound hwrite

/-! ### Removing results -/

/-- The results under some fingerprints are removed, and those that were there are counted. -/
theorem of_removeEntries_eq_ok (hopen : cache.IsOpen tree) {fingerprints : List Fingerprint}
    (hvalid : ∀ fingerprint ∈ fingerprints, fingerprint.IsValid) (hnodup : fingerprints.Nodup)
    {removed : Nat}
    (h : cache.removeEntries (fingerprints.map (·.text)) tree = (.ok removed, next)) :
  tree.Keeps next
    ∧ (∀ fingerprint ∈ fingerprints, cache.files next (entryNames fingerprint) = none)
    ∧ (∀ names, (∀ fingerprint ∈ fingerprints, names ≠ entryNames fingerprint) →
      cache.files next names = cache.files tree names)
    ∧ removed = fingerprints.countP fun fingerprint =>
      (cache.files tree (entryNames fingerprint)).isSome
  := by
  induction fingerprints generalizing tree removed with
  | nil =>
      obtain ⟨rfl, rfl⟩ := of_pure_eq_ok h
      use .refl hopen.sound
      simp
  | cons first rest ih =>
      have hfirst := hvalid first List.mem_cons_self
      obtain ⟨hnotMem, hnodup⟩ := List.nodup_cons.mp hnodup
      rw [List.map_cons, removeEntries, Fingerprint.ofText?_text hfirst] at h
      obtain ⟨gone, middle, hgone, h⟩ := bind_eq_ok h
      obtain ⟨others, last, hothers, h⟩ := bind_eq_ok h
      obtain ⟨rfl, rfl⟩ := of_pure_eq_ok h
      obtain ⟨hkeeps, hfiles, rfl⟩ := of_removeIfThere_eq_ok hopen
        (namesOf_entryPath cache tree hfirst)
        (toOption_read_entryPath cache hopen.sound hopen.reaches hfirst) hgone
      obtain ⟨hkeeps', hnone, hsame, rfl⟩ := ih (hopen.of_keeps hkeeps)
        (fun fingerprint hmem => hvalid fingerprint (List.mem_cons_of_mem _ hmem)) hnodup hothers
      -- The files of the other fingerprints are those that were there before the first was removed.
      have hrest : ∀ fingerprint ∈ rest,
          cache.files middle (entryNames fingerprint) = cache.files tree (entryNames fingerprint) := by
        intro fingerprint hmem
        rw [hfiles, Function.update_of_ne]
        intro heq
        rw [entryNames_injective heq] at hmem
        apply hnotMem hmem
      use hkeeps.trans hkeeps'
      constructor
      · intro fingerprint hmem
        rcases List.mem_cons.mp hmem with rfl | hmem
        · rw [hsame, hfiles, Function.update_self]
          intro other hother heq
          rw [entryNames_injective heq] at hnotMem
          apply hnotMem hother
        · apply hnone fingerprint hmem
      constructor
      · intro names hnames
        rw [hsame names fun fingerprint hmem => hnames fingerprint (List.mem_cons_of_mem _ hmem),
          hfiles, Function.update_of_ne (hnames first List.mem_cons_self)]
      · rw [List.countP_cons, Nat.add_comm]
        congr 1
        apply List.countP_congr
        intro fingerprint hmem
        rw [hrest fingerprint hmem]

/-- Results that are there can be removed. -/
theorem exists_removeEntries (hopen : cache.IsOpen tree) {fingerprints : List Fingerprint}
    (hvalid : ∀ fingerprint ∈ fingerprints, fingerprint.IsValid) (hnodup : fingerprints.Nodup)
    (hsome : ∀ fingerprint ∈ fingerprints, (cache.files tree (entryNames fingerprint)).isSome) :
  ∃ removed next, cache.removeEntries (fingerprints.map (·.text)) tree = (.ok removed, next)
  := by
  induction fingerprints generalizing tree with
  | nil => exact ⟨0, tree, rfl⟩
  | cons first rest ih =>
      have hfirst := hvalid first List.mem_cons_self
      obtain ⟨hnotMem, hnodup⟩ := List.nodup_cons.mp hnodup
      have hread := toOption_read_entryPath cache hopen.sound hopen.reaches hfirst
      obtain ⟨middle, hgone⟩ := exists_removeIfThere hread (hsome first List.mem_cons_self)
      obtain ⟨hkeeps, hfiles, -⟩ := of_removeIfThere_eq_ok hopen
        (namesOf_entryPath cache tree hfirst) hread hgone
      have hrest : ∀ fingerprint ∈ rest, (cache.files middle (entryNames fingerprint)).isSome := by
        intro fingerprint hmem
        rw [hfiles, Function.update_of_ne]
        · apply hsome fingerprint (List.mem_cons_of_mem _ hmem)
        · intro heq
          rw [entryNames_injective heq] at hmem
          apply hnotMem hmem
      obtain ⟨others, last, hothers⟩ := ih (hopen.of_keeps hkeeps)
        (fun fingerprint hmem => hvalid fingerprint (List.mem_cons_of_mem _ hmem)) hnodup hrest
      use 1 + others, last
      rw [List.map_cons, removeEntries, Fingerprint.ofText?_text hfirst]
      dsimp only
      rw [bind_of_ok _ hgone, bind_of_ok _ hothers]
      rfl

/-! ### Opening -/

/-- A cache that was opened can be reached, and no file has changed. -/
theorem of_openAt_eq_ok (hsound : tree.Sound) {root : String}
    (h : openAt root tree = (.ok cache, next)) :
  cache = ⟨root⟩ ∧ cache.IsOpen next ∧ Grows tree next
  := by
  obtain ⟨_, middle, hentries, h⟩ := bind_eq_ok h
  obtain ⟨_, last, hchunks, h⟩ := bind_eq_ok h
  obtain ⟨rfl, rfl⟩ := of_pure_eq_ok h
  obtain ⟨hgrows, hfollow, -⟩ := grows_of_createFolders hsound hentries
  obtain ⟨hgrows', -, -⟩ := grows_of_createFolders hgrows.sound hchunks
  have hreaches : middle.Reaches root := by
    rw [Path.isAbsolute_join root isShortName_entries.toIsName,
      Path.pieces_join root isShortName_entries.toIsName] at hfollow
    rw [FileTree.Reaches, hgrows.here_eq, hgrows.base_eq]
    apply FileTree.exists_follow_of_append hfollow
  constructor
  · rfl
  constructor
  · use hgrows'.sound, hgrows'.reaches hreaches
  · apply hgrows.trans hgrows'

end Scrutiny.Cache
