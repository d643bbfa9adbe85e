import Scrutiny.Cache.Store
import Scrutiny.Proofs.Cache.Writing
import Scrutiny.Proofs.Files.Interruption

/-!
# Interrupted stores and lists

A result that is listed under its chunk is removed with the results of the chunk.  Storing a result
writes its file before the list of its chunk, so if it is interrupted in between, the new result is
found but not listed.  All other results are found as before and stay listed.
-/

namespace Scrutiny.Cache

open FileAction FileTree

variable {cache : Cache} {tree next : FileTree}

/-- A result is listed under its chunk. -/
def IsListed (cache : Cache) (tree : FileTree) (fingerprint : Fingerprint) (entry : CacheEntry) :
    Prop :=
  fingerprint.text ∈ (cache.listOf tree (parentId entry.chunkId)).fingerprints

/-- All results that are found are listed. -/
def AllListed (cache : Cache) (tree : FileTree) : Prop :=
  ∀ fingerprint, fingerprint.IsValid → ∀ entry ∈ cache.lookup tree fingerprint,
    cache.IsListed tree fingerprint entry

theorem addToIndex_eq (cache : Cache) (chunkId : String) (fingerprint : Fingerprint)
    (tree : FileTree) :
  cache.addToIndex chunkId fingerprint tree
    = if fingerprint.text ∈ (cache.listOf tree chunkId).fingerprints then (.ok (), tree)
      else writeJson (cache.indexPath chunkId) (cache.grownList tree chunkId fingerprint).toJson tree
  := by
  rw [addToIndex, get_bind, listOf]
  dsimp only
  split <;> rfl

/-! ### Removing what is listed -/

/-- The results under some fingerprints are gone after they were removed, nothing is new, and files that
are no results stay. -/
theorem files_of_removeEntries (hopen : cache.IsOpen tree) {texts : List String} {removed : Nat}
    (h : cache.removeEntries texts tree = (.ok removed, next)) :
  tree.Keeps next
    ∧ (∀ fingerprint, fingerprint.IsValid → fingerprint.text ∈ texts →
      cache.files next (entryNames fingerprint) = none)
    ∧ (∀ names, cache.files tree names = none → cache.files next names = none)
    ∧ ∀ names, (∀ fingerprint, names ≠ entryNames fingerprint) →
      cache.files next names = cache.files tree names
  := by
  induction texts generalizing tree removed with
  | nil =>
      obtain ⟨-, rfl⟩ := of_pure_eq_ok h
      use .refl hopen.sound
      simp
  | cons text rest ih =>
      rw [removeEntries] at h
      cases htext : Fingerprint.ofText? text with
      | none =>
          rw [htext] at h
          obtain ⟨hkeeps, hgone, hothers⟩ := ih hopen h
          refine ⟨hkeeps, ?_, hothers⟩
          intro fingerprint hvalid hmem
          rcases List.mem_cons.mp hmem with rfl | hmem
          · cases (Fingerprint.ofText?_text hvalid).symm.trans htext
          · apply hgone fingerprint hvalid hmem
      | some first =>
          rw [htext] at h
          obtain ⟨rfl, hfirst⟩ := Fingerprint.of_ofText?_eq_some htext
          obtain ⟨gone, middle, hremove, h⟩ := bind_eq_ok h
          obtain ⟨others, last, hothers, h⟩ := bind_eq_ok h
          obtain ⟨-, rfl⟩ := of_pure_eq_ok h
          obtain ⟨hkeeps, hfiles, -⟩ := of_removeIfThere_eq_ok hopen
            (namesOf_entryPath cache tree hfirst)
            (toOption_read_entryPath cache hopen.sound hopen.reaches hfirst) hremove
          obtain ⟨hkeeps', hgone, hnone, hsame⟩ := ih (hopen.of_keeps hkeeps) hothers
          use hkeeps.trans hkeeps'
          constructor
          · intro fingerprint hvalid hmem
            rcases List.mem_cons.mp hmem with heq | hmem
            · obtain rfl : fingerprint = first :=
                Option.some.inj ((Fingerprint.ofText?_text hvalid).symm.trans (heq ▸ htext))
              apply hnone
              rw [hfiles, Function.update_self]
            · apply hgone fingerprint hvalid hmem
          constructor
          · intro names hnames
            apply hnone
            rw [hfiles]
            by_cases heq : names = entryNames first
            · rw [heq, Function.update_self]
            · rw [Function.update_of_ne heq, hnames]
          · intro names hnames
            rw [hsame names hnames, hfiles, Function.update_of_ne (hnames first)]

/-- The steps of removing what is listed under an id: the results, and then their list. -/
theorem of_invalidate_eq_ok (hopen : cache.IsOpen tree) {chunkId : String} {count : Nat}
    (h : cache.invalidate chunkId tree = (.ok count, next)) :
  (cache.index? tree (parentId chunkId) = none ∧ tree = next)
    ∨ ∃ index middle removed, cache.index? tree (parentId chunkId) = some index
      ∧ cache.removeEntries index.fingerprints tree = (.ok removed, middle)
      ∧ cache.IsOpen next
      ∧ cache.files next
        = Function.update (cache.files middle) (indexNames (parentId chunkId)) none
  := by
  rw [invalidate, get_bind] at h
  cases hindex : cache.index? tree (parentId chunkId) with
  | none =>
      rw [hindex] at h
      exact .inl ⟨rfl, (of_pure_eq_ok h).2⟩
  | some index =>
      rw [hindex] at h
      obtain ⟨removed, middle, hremove, h⟩ := bind_eq_ok h
      obtain ⟨gone, last, hgone, h⟩ := bind_eq_ok h
      obtain ⟨-, rfl⟩ := of_pure_eq_ok h
      obtain ⟨hkeeps, -⟩ := files_of_removeEntries hopen hremove
      have hopen' := hopen.of_keeps hkeeps
      obtain ⟨hkeeps', hfiles, -⟩ := of_removeIfThere_eq_ok hopen'
        (namesOf_indexPath cache middle (parentId chunkId))
        (toOption_read_indexPath cache hopen'.sound hopen'.reaches _) hgone
      exact .inr ⟨index, middle, removed, rfl, hremove, hopen'.of_keeps hkeeps', hfiles⟩

/-- A result that is listed is gone after the results of its chunk were removed. -/
theorem lookup_of_invalidate (hopen : cache.IsOpen tree) {fingerprint : Fingerprint}
    (hvalid : fingerprint.IsValid) {entry : CacheEntry}
    (hlisted : cache.IsListed tree fingerprint entry) {count : Nat}
    (h : cache.invalidate entry.chunkId tree = (.ok count, next)) :
  cache.lookup next fingerprint = none
  := by
  rw [IsListed, listOf] at hlisted
  rcases of_invalidate_eq_ok hopen h with
    ⟨hindex, -⟩ | ⟨index, middle, removed, hindex, hremove, hopen', hfiles⟩
  · rw [hindex] at hlisted
    cases hlisted
  · rw [hindex] at hlisted
    obtain ⟨-, hnone, -⟩ := files_of_removeEntries hopen hremove
    rw [lookup_eq hopen' hvalid, hfiles, Function.update_of_ne (entryNames_ne_indexNames _ _),
      hnone fingerprint hvalid hlisted]
    rfl

/-! ### Files that have their old bytes or new ones -/

section

variable {path : String} {names : List String} {bytes : List UInt8}
  (hnames : tree.namesOf path = tree.base cache.root ++ names)
  (htemporary : IsTemporary (tree.namesOf (Path.temporary path)))
  (h : OldOrNew path bytes tree next)

include hnames htemporary h in
theorem files_of_oldOrNew_ne (others : List String) (hne : others ≠ names)
    (hproper : ¬ IsTemporary (tree.base cache.root ++ others)) :
  cache.files next others = cache.files tree others
  := by
  rw [files, h.base_eq]
  apply h.file?_eq
  · rw [hnames]
    intro heq
    apply hne (List.append_cancel_left heq)
  · intro heq
    apply hproper
    rwa [heq]

include hnames h in
theorem files_of_oldOrNew :
  cache.files next names = cache.files tree names ∨ cache.files next names = some bytes
  := by
  rw [files, files, h.base_eq, ← hnames]
  apply h.old_or_new

end

/-- A file that was written as a whole has its new bytes. -/
theorem oldOrNew_of_writeAtomic (hsound : tree.Sound) {path : String} {bytes : List UInt8}
    (h : writeAtomic path bytes tree = (.ok (), next)) :
  OldOrNew path bytes tree next ∧ next.file? (tree.namesOf path) = some bytes
  := by
  have hreplaces := replaces_of_writeAtomic hsound h
  obtain ⟨names, hresolve, hbytes⟩ := read_eq_ok_iff.mp hreplaces.read_eq
  obtain ⟨rfl, -⟩ := of_resolve_eq_ok hreplaces.sound hresolve
  rw [hreplaces.namesOf_eq] at hbytes
  use ⟨hreplaces.toKeeps, hreplaces.file?_eq, .inr hbytes⟩

/-! ### Storing -/

theorem listOf_eq (hopen : cache.IsOpen tree) (chunkId : String) :
  cache.listOf tree chunkId
    = ((cache.files tree (indexNames chunkId)).bind ChunkIndex.ofBytes?).getD ⟨chunkId, []⟩
  := by
  rw [listOf, index?_eq hopen]

/-- The list in a file is that of its chunk, whatever other chunk has its list in the same file. -/
theorem fingerprints_listOf (hopen : cache.IsOpen tree) (chunkId : String) :
  (cache.listOf tree chunkId).fingerprints
    = (((cache.files tree (indexNames chunkId)).bind ChunkIndex.ofBytes?).map
      (·.fingerprints)).getD []
  := by
  rw [listOf_eq hopen]
  cases (cache.files tree (indexNames chunkId)).bind ChunkIndex.ofBytes? <;> rfl

section

variable {key : CacheKey} {bytes : List UInt8}

/-- Writing the file of a result changes what is found under its fingerprint, and nothing else. -/
theorem of_oldOrNew_entry (hopen : cache.IsOpen tree) (hkey : key.fingerprint.IsValid)
    (h : OldOrNew (cache.entryPath key.fingerprint) bytes tree next) :
  (∀ fingerprint, fingerprint.IsValid → fingerprint ≠ key.fingerprint →
      cache.lookup next fingerprint = cache.lookup tree fingerprint)
    ∧ (cache.lookup next key.fingerprint = cache.lookup tree key.fingerprint
      ∨ cache.lookup next key.fingerprint
        = (CacheEntry.ofBytes? bytes).filter (·.fingerprint == key.fingerprint.text))
    ∧ ∀ id, cache.listOf next id = cache.listOf tree id
  := by
  have hopen' := hopen.of_keeps h.toKeeps
  have hnames := namesOf_entryPath cache tree hkey
  have hsame := files_of_oldOrNew_ne hnames (isTemporary_entryPath cache tree hkey) h
  constructor
  · intro fingerprint hvalid hne
    rw [lookup_eq hopen' hvalid, lookup_eq hopen hvalid, hsame]
    · intro heq
      apply hne (entryNames_injective heq)
    · apply not_isTemporary_entryNames
  constructor
  · rcases files_of_oldOrNew hnames h with hold | hnew
    · left
      rw [lookup_eq hopen' hkey, lookup_eq hopen hkey, hold]
    · right
      rw [lookup_eq hopen' hkey, hnew, Option.bind_some]
      cases CacheEntry.ofBytes? bytes <;> rfl
  · intro id
    rw [listOf_eq hopen', listOf_eq hopen, hsame _ (entryNames_ne_indexNames _ _).symm]
    apply not_isTemporary_indexNames

/-- Writing the list of a chunk with one more fingerprint changes no result, and no list loses a
fingerprint. -/
theorem of_oldOrNew_index (hopen : cache.IsOpen tree) {chunkId : String}
    {fingerprint : Fingerprint}
    (h : OldOrNew (cache.indexPath chunkId) (cache.grownList tree chunkId fingerprint).bytes
      tree next) :
  (∀ other, other.IsValid → cache.lookup next other = cache.lookup tree other)
    ∧ ∀ id, ∀ text ∈ (cache.listOf tree id).fingerprints, text ∈ (cache.listOf next id).fingerprints
  := by
  have hopen' := hopen.of_keeps h.toKeeps
  have hnames := namesOf_indexPath cache tree chunkId
  have hsame := files_of_oldOrNew_ne hnames (isTemporary_indexPath cache tree chunkId) h
  constructor
  · intro other hvalid
    rw [lookup_eq hopen' hvalid, lookup_eq hopen hvalid, hsame _ (entryNames_ne_indexNames _ _)]
    apply not_isTemporary_entryNames
  · intro id text htext
    rw [fingerprints_listOf hopen'] at *
    by_cases hid : indexNames id = indexNames chunkId
    · rcases files_of_oldOrNew hnames h with hold | hnew
      · rw [hid, hold, ← hid, ← fingerprints_listOf hopen]
        apply htext
      · rw [hid, hnew, Option.bind_some, ChunkIndex.ofBytes?_bytes]
        apply List.mem_append_left
        rw [fingerprints_listOf hopen, ← hid, ← fingerprints_listOf hopen]
        apply htext
    · rw [hsame _ hid (not_isTemporary_indexNames _ _), ← fingerprints_listOf hopen]
      apply htext

end

theorem namesOf_temporary_entryPath_ne (cache : Cache) (tree : FileTree) {fingerprint : Fingerprint}
    (hvalid : fingerprint.IsValid) :
  tree.namesOf (Path.temporary (cache.entryPath fingerprint))
    ≠ tree.namesOf (cache.entryPath fingerprint)
  := by
  intro heq
  have htemporary := isTemporary_entryPath cache tree hvalid
  rw [heq, namesOf_entryPath cache tree hvalid] at htemporary
  apply not_isTemporary_entryNames _ _ htemporary

theorem namesOf_temporary_indexPath_ne (cache : Cache) (tree : FileTree) (chunkId : String) :
  tree.namesOf (Path.temporary (cache.indexPath chunkId)) ≠ tree.namesOf (cache.indexPath chunkId)
  := by
  intro heq
  have htemporary := isTemporary_indexPath cache tree chunkId
  rw [heq, namesOf_indexPath] at htemporary
  apply not_isTemporary_indexNames _ _ htemporary

variable {key : CacheKey} {result : Json} {now : Nat}

/-- A store that fails because of what it finds is one of those that are interrupted. -/
theorem storeInterrupted_of_store {e : FileError}
    (h : cache.store key result now tree = (.error e, next)) :
  StoreInterrupted cache key result now tree next
  := by
  rcases of_bind h with ⟨e', hentry, -⟩ | ⟨⟨⟩, middle, hentry, h⟩
  · apply StoreInterrupted.inEntry (writeInterrupted_of_writeAtomic hentry)
  · rcases of_bind h with ⟨e', hindex, -⟩ | ⟨_, last, -, h⟩
    · rw [addToIndex_eq] at hindex
      split at hindex
      · cases congrArg Prod.fst hindex
      · rename_i hnew
        apply StoreInterrupted.inIndex hentry hnew (writeInterrupted_of_writeAtomic hindex)
    · cases congrArg Prod.fst h

/-- What is found and listed after a store was interrupted. -/
theorem of_storeInterrupted (hopen : cache.IsOpen tree) (hkey : key.fingerprint.IsValid)
    (hnormal : result.IsNormal) (hfits : result.Fits) (hnow : now < 2 ^ 64)
    (h : StoreInterrupted cache key result now tree next) :
  cache.IsOpen next
    ∧ (∀ fingerprint, fingerprint.IsValid → fingerprint ≠ key.fingerprint →
      cache.lookup next fingerprint = cache.lookup tree fingerprint)
    ∧ (∀ entry ∈ cache.lookup next key.fingerprint, entry ∈ cache.lookup tree key.fingerprint
      ∨ entry = CacheEntry.ofKey key result.reread now)
    ∧ ∀ id, ∀ text ∈ (cache.listOf tree id).fingerprints,
      text ∈ (cache.listOf next id).fingerprints
  := by
  have hnew : ∀ entry ∈ (CacheEntry.ofBytes? (CacheEntry.ofKey key result now).bytes).filter
      (·.fingerprint == key.fingerprint.text), entry = CacheEntry.ofKey key result.reread now := by
    rw [CacheEntry.ofBytes?_bytes_ofKey key hnormal hfits hnow]
    intro entry hentry
    obtain ⟨hentry, -⟩ := Option.filter_eq_some_iff.mp hentry
    split at hentry
    · apply (Option.some.inj hentry).symm
    · cases hentry
  cases h with
  | inEntry h =>
      have hentry := h.oldOrNew hopen.sound (namesOf_temporary_entryPath_ne cache tree hkey)
      obtain ⟨hothers, hself, hlists⟩ := of_oldOrNew_entry hopen hkey hentry
      use hopen.of_keeps hentry.toKeeps, hothers
      constructor
      · intro entry hfound
        rcases hself with hself | hself
        · left
          rwa [← hself]
        · right
          apply hnew
          rw [CacheEntry.bytes]
          rwa [← hself]
      · intro id text htext
        rwa [hlists]
  | inIndex hentry _ h =>
      obtain ⟨hentry, -⟩ := oldOrNew_of_writeAtomic hopen.sound hentry
      obtain ⟨hothers, hself, hlists⟩ := of_oldOrNew_entry hopen hkey hentry
      have hopen' := hopen.of_keeps hentry.toKeeps
      have hindex := h.oldOrNew hopen'.sound (namesOf_temporary_indexPath_ne cache _ _)
      obtain ⟨hsame, hgrows⟩ := of_oldOrNew_index hopen' hindex
      use hopen'.of_keeps hindex.toKeeps
      constructor
      · intro fingerprint hvalid hne
        rw [hsame fingerprint hvalid, hothers fingerprint hvalid hne]
      constructor
      · intro entry hfound
        rw [hsame _ hkey] at hfound
        rcases hself with hself | hself
        · left
          rwa [← hself]
        · right
          apply hnew
          rw [CacheEntry.bytes]
          rwa [← hself]
      · intro id text htext
        apply hgrows
        rwa [hlists]

/-- If all results are listed and a store is interrupted, then each result that is found is listed
and is gone after the results of its chunk were removed; only the new result itself may be found
although it is not listed, if its fingerprint was not listed under its chunk before. -/
theorem listed_of_storeInterrupted (hopen : cache.IsOpen tree) (hlisted : cache.AllListed tree)
    (hkey : key.fingerprint.IsValid) (hnormal : result.IsNormal) (hfits : result.Fits)
    (hnow : now < 2 ^ 64) (h : StoreInterrupted cache key result now tree next)
    {fingerprint : Fingerprint} (hvalid : fingerprint.IsValid) {entry : CacheEntry}
    (hentry : cache.lookup next fingerprint = some entry) :
  (cache.IsListed next fingerprint entry
      ∧ ∀ count last, cache.invalidate entry.chunkId next = (.ok count, last) →
        cache.lookup last fingerprint = none)
    ∨ (fingerprint = key.fingerprint ∧ entry = CacheEntry.ofKey key result.reread now
      ∧ key.fingerprint.text ∉ (cache.listOf tree key.indexId).fingerprints)
  := by
  obtain ⟨hopen', hothers, hself, hgrows⟩ :=
    of_storeInterrupted hopen hkey hnormal hfits hnow h
  -- What was found before was listed, and still is.
  have hold (hfound : cache.lookup tree fingerprint = some entry) :
      cache.IsListed next fingerprint entry :=
    hgrows _ _ (hlisted fingerprint hvalid entry hfound)
  have hremoved (hlisted : cache.IsListed next fingerprint entry) :
      cache.IsListed next fingerprint entry
        ∧ ∀ count last, cache.invalidate entry.chunkId next = (.ok count, last) →
          cache.lookup last fingerprint = none :=
    ⟨hlisted, fun _ _ hrun => lookup_of_invalidate hopen' hvalid hlisted hrun⟩
  by_cases hne : fingerprint = key.fingerprint
  · subst hne
    rcases hself entry hentry with hfound | rfl
    · left
      apply hremoved (hold hfound)
    · by_cases hmem : key.fingerprint.text ∈ (cache.listOf tree key.indexId).fingerprints
      · left
        apply hremoved
        apply hgrows _ _ hmem
      · right
        use rfl, rfl
  · left
    apply hremoved
    apply hold
    rw [← hothers fingerprint hvalid hne]
    apply hentry

/-! ### A list that cannot be written -/

/-- A key whose list goes to the folder `c0`. -/
def listlessKey : CacheKey where
  fingerprint := .compute "x" "security" "m" none
  chunkId := "a.py:f"
  reviewer := "security"
  model := "m"

/-- The names of that folder. -/
def listlessNames : List String := ["cache", "chunks", "c0"]

theorem indexNames_listlessKey :
  indexNames listlessKey.indexId = ["chunks", "c0", fileName (Sha256.ofText listlessKey.indexId)]
  := by
  have hdigits : String.ofList ((Sha256.ofText listlessKey.indexId).toList.take 2) = "c0" := by
    decide +kernel
  rw [indexNames, hdigits]

/-- There is nothing in a new cache but a file in the place of the folder. -/
structure IsBlocked (tree : FileTree) : Prop where
  hasFolder : tree.HasFolder "cache"
  base_eq : tree.base "cache" = ["cache"]
  file?_self : tree.file? listlessNames = some []
  file?_ne : ∀ names, names ≠ listlessNames → tree.file? names = none
  length_le : ∀ names, tree.IsFolderAt names → names.length ≤ 2

theorem exists_isBlocked :
  ∃ tree, IsBlocked tree
  := by
  obtain ⟨new, hopen, hnew⟩ := exists_isNew
  have hrun : ((openAt "cache" >>= fun _ => write "cache/chunks/c0" []) .empty).1.toBool := by
    decide +kernel
  rw [bind_of_ok _ hopen] at hrun
  have hnames : new.namesOf "cache/chunks/c0" = listlessNames := by
    have hpath : "cache/chunks/c0" = ["chunks", "c0"].foldl Path.join "cache" := by decide +kernel
    have hisName : ∀ name ∈ ["chunks", "c0"], Path.IsName name := by
      simp only [List.mem_cons, List.not_mem_nil, or_false, forall_eq_or_imp, forall_eq]
      use isShortName_chunks.toIsName
      constructor <;> decide
    rw [hpath, namesOf_foldl_join (by simp) hisName, hnew.base_eq]
    rfl
  cases hwrite : write "cache/chunks/c0" [] new with
  | mk result tree =>
      cases result with
      | error e =>
          rw [hwrite] at hrun
          cases hrun
      | ok u =>
          obtain ⟨-, hsets⟩ := sets_of_write hnew.hasFolder.sound hwrite
          rw [hnames] at hsets
          use tree, hnew.hasFolder.of_keeps hsets.toKeeps
          · rw [hsets.base_eq, hnew.base_eq]
          · apply hsets.file?_self
          · intro names hne
            rw [hsets.file?_ne names hne, hnew.file?_eq]
          · intro names hfolder
            apply hnew.length_le names (hsets.isFolderAt_of names hfolder)

/-- A list whose folder cannot be made is missing. -/
theorem index?_listlessKey (hroot : tree.HasFolder "cache") (hbase : tree.base "cache" = ["cache"])
    (hblocked : tree.file? listlessNames = some []) :
  index? ⟨"cache"⟩ tree listlessKey.indexId = none
  := by
  rw [index?_eq (isOpen_of_hasFolder hroot), indexNames_listlessKey, files, hbase]
  cases hfile : tree.file? (listlessNames ++ [fileName (Sha256.ofText listlessKey.indexId)]) with
  | none =>
      have hfile : tree.file? (["cache"] ++ ["chunks", "c0",
          fileName (Sha256.ofText listlessKey.indexId)]) = none := hfile
      rw [hfile]
      rfl
  | some bytes =>
      cases not_isFolderAt_of_file? hblocked (isFolderAt_of_file? (by simp) hfile)

theorem IsBlocked.lookup_eq_none (h : IsBlocked tree) {fingerprint : Fingerprint}
    (hvalid : fingerprint.IsValid) :
  lookup ⟨"cache"⟩ tree fingerprint = none
  := by
  rw [lookup_eq (isOpen_of_hasFolder h.hasFolder) hvalid, files, h.base_eq, h.file?_ne]
  · rfl
  · simp [entryNames, listlessNames]

theorem IsBlocked.canKeep (h : IsBlocked tree) (fingerprint : Fingerprint) :
  CanKeep ⟨"cache"⟩ tree fingerprint
  := by
  constructor
  · intro names hprefix
    apply h.file?_ne
    rintro rfl
    rw [h.base_eq] at hprefix
    simp [listlessNames] at hprefix
  · intro hfolder
    have hlength := h.length_le _ hfolder
    simp at hlength
  · intro hfolder
    have hlength := h.length_le _ hfolder
    simp at hlength

/-- The list cannot be written. -/
theorem addToIndex_listlessKey (hroot : tree.HasFolder "cache")
    (hbase : tree.base "cache" = ["cache"]) (hblocked : tree.file? listlessNames = some []) :
  ∃ e next, addToIndex ⟨"cache"⟩ listlessKey.indexId listlessKey.fingerprint tree = (.error e, next)
    ∧ index? ⟨"cache"⟩ next listlessKey.indexId = none
  := by
  have hplace := isPlace_index listlessKey.indexId
  rw [addToIndex_eq, listOf, index?_listlessKey hroot hbase hblocked, if_neg (by simp)]
  cases hwrite : writeJson (indexPath ⟨"cache"⟩ listlessKey.indexId)
      (grownList ⟨"cache"⟩ tree listlessKey.indexId listlessKey.fingerprint).toJson tree with
  | mk result next =>
      obtain ⟨htouches, -⟩ := hplace.touches_of_writeAtomic hroot hwrite
      cases result with
      | ok u =>
          have hfree := hplace.isFree_of_writeAtomic hroot hwrite
          have hway := hfree.way listlessNames
          have hdigits := (List.cons.inj (List.cons.inj indexNames_listlessKey).2).1
          rw [hbase, hblocked, hdigits] at hway
          cases hway (List.prefix_refl _)
      | error e =>
          use e, next, rfl
          apply index?_listlessKey (hroot.of_keeps htouches.toKeeps)
          · rw [htouches.base_eq, hbase]
          · rw [htouches.file?_eq, hblocked]
            intro hmem
            have hlength := length_of_mem_placeNames hmem
            rw [hbase] at hlength
            simp [listlessNames] at hlength

/-- If a file stands where the folder of a list is to be made, storing a result fails after the
result was written; the result is found and not listed. -/
theorem exists_store_listlessKey :
  ∃ tree e next, HasFolder tree "cache" ∧ AllListed ⟨"cache"⟩ tree
    ∧ store ⟨"cache"⟩ listlessKey .null 0 tree = (.error e, next)
    ∧ lookup ⟨"cache"⟩ next listlessKey.fingerprint = some (.ofKey listlessKey .null 0)
    ∧ index? ⟨"cache"⟩ next listlessKey.indexId = none
  := by
  have hkey : listlessKey.fingerprint.IsValid := Fingerprint.isValid_compute _ _ _ _
  obtain ⟨tree, hblocked⟩ := exists_isBlocked
  have hroot := hblocked.hasFolder
  obtain ⟨middle, hentry⟩ := (writeJson_entryPath_isOk_iff hroot hkey
    (CacheEntry.ofKey listlessKey .null 0).toJson).mpr (hblocked.canKeep _)
  obtain ⟨htouches, -⟩ := (isPlace_entry hkey).touches_of_writeAtomic hroot hentry
  obtain ⟨hroot', -, -, hfound⟩ := of_writeJson_entryPath hroot hkey hentry
  have hmiddle : middle.file? listlessNames = some [] := by
    rw [htouches.file?_eq, hblocked.file?_self]
    intro hmem
    have hlength := length_of_mem_placeNames hmem
    rw [hblocked.base_eq] at hlength
    simp [listlessNames] at hlength
  have hbase' : middle.base "cache" = ["cache"] := by rw [htouches.base_eq, hblocked.base_eq]
  obtain ⟨e, next, hadd, hindex⟩ := addToIndex_listlessKey hroot' hbase' hmiddle
  obtain ⟨-, -, hsame⟩ := of_addToIndex hroot' hadd
  have hfits : Json.null.Fits := by
    intro n hn
    cases hn
  have hbytes := @CacheEntry.ofBytes?_bytes_ofKey listlessKey .null .null hfits 0 (by decide)
  use tree, e, next, hroot
  constructor
  · intro fingerprint hvalid entry hentry
    rw [hblocked.lookup_eq_none hvalid] at hentry
    cases hentry
  constructor
  · rw [store, bind_of_ok _ hentry, bind_of_error _ hadd]
  use ?_, hindex
  rw [hsame _ hkey, hfound]
  dsimp only
  rw [CacheEntry.bytes] at hbytes
  rw [hbytes, if_pos (by decide), Option.filter_some, if_pos]
  · rfl
  · apply beq_self_eq_true

/-- The result that is left although its list was not written. -/
theorem listed_of_storeInterrupted_listlessKey :
  ∃ tree e next, HasFolder tree "cache" ∧ AllListed ⟨"cache"⟩ tree
    ∧ store ⟨"cache"⟩ listlessKey .null 0 tree = (.error e, next)
    ∧ listlessKey.fingerprint.text ∉ (listOf ⟨"cache"⟩ tree listlessKey.indexId).fingerprints
  := by
  obtain ⟨tree, e, next, hroot, hlisted, hstore, hfound, hindex⟩ := exists_store_listlessKey
  use tree, e, next, hroot, hlisted, hstore
  have h := listed_of_storeInterrupted (isOpen_of_hasFolder hroot) hlisted
    (Fingerprint.isValid_compute _ _ _ _) .null (by
      intro n hn
      cases hn) (by decide) (storeInterrupted_of_store hstore)
    (Fingerprint.isValid_compute _ _ _ _) hfound
  rcases h with ⟨h, -⟩ | ⟨-, -, h⟩
  · rw [IsListed, listOf] at h
    have hindex' : index? ⟨"cache"⟩ next (parentId (CacheEntry.ofKey listlessKey .null 0).chunkId)
        = none := hindex
    rw [hindex'] at h
    cases h
  · apply h

/-- A result that was stored with an error is still found after the results of its chunk were
removed. -/
theorem found_after_invalidate_of_store_error :
  ∃ tree e next, HasFolder tree "cache" ∧ AllListed ⟨"cache"⟩ tree
    ∧ store ⟨"cache"⟩ listlessKey .null 0 tree = (.error e, next)
    ∧ invalidate ⟨"cache"⟩ listlessKey.chunkId next = (.ok 0, next)
    ∧ lookup ⟨"cache"⟩ next listlessKey.fingerprint = some (.ofKey listlessKey .null 0)
  := by
  obtain ⟨tree, e, next, hroot, hlisted, hstore, hfound, hindex⟩ := exists_store_listlessKey
  use tree, e, next, hroot, hlisted, hstore
  use ?_, hfound
  have hindex' : index? ⟨"cache"⟩ next (parentId listlessKey.chunkId) = none := hindex
  rw [invalidate, get_bind, hindex']
  rfl

end Scrutiny.Cache
