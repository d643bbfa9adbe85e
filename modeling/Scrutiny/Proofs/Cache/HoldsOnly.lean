import Mathlib.Data.Set.Basic
import Scrutiny.Proofs.Cache.Interruption
import Scrutiny.Proofs.Cache.Names
import Scrutiny.Proofs.Files.Spared

/-!
# What is in a cache, and what is beside it

A cache spares the files that are not its own, and holds only entries that were stored.
-/

/-!
## What a cache spares

A cache writes and removes its own files, and for a time others beside them.  It spares all files with
other names.
-/

namespace Scrutiny

/-- Neither the path nor the one that is written on the way to it leads to one of some names. -/
def Path.Avoids (spared : Set (List String)) (path : String) : Prop :=
  ∀ tree : FileTree, tree.namesOf path ∉ spared ∧ tree.namesOf (Path.temporary path) ∉ spared

theorem Path.avoids_of_fileName {spared : Set (List String)} {path name : String}
    (hname : fileName? path = some name)
    (h : ∀ front, front ++ [name] ∉ spared ∧ front ++ [name ++ temporaryEnding] ∉ spared) :
  Avoids spared path
  := by
  intro tree
  obtain ⟨front, hfront⟩ := List.getLast?_eq_some_iff.mp (tree.getLast?_namesOf hname)
  obtain ⟨front', hfront'⟩ := List.getLast?_eq_some_iff.mp (tree.getLast?_namesOf_temporary hname)
  rw [hfront, hfront']
  exact ⟨(h front).1, (h front').2⟩

/-- Names that end in other letters are others. -/
theorem Path.append_ne_of_getLast? (front front' : List String) (stem : String) {ending other : String}
    (hne : ending.toList ≠ []) (h : ending.toList.getLast? ≠ other.toList.getLast?) :
  front ++ [stem ++ ending] ≠ front' ++ [other]
  := by
  intro heq
  have htexts := List.singleton_inj.mp (List.append_inj_right' heq rfl)
  rw [← htexts, String.toList_append, List.getLast?_append_of_ne_nil _ hne] at h
  apply h rfl

theorem FileAction.Spares.writeJson {spared : Set (List String)} {path name : String}
    (hname : Path.fileName? path = some name) (h : Path.Avoids spared path) (value : Json) :
  Spares spared (writeJson path value)
  := writeAtomic hname (fun tree => (h tree).1) (fun tree => (h tree).2) _

namespace Cache

/-- No file that the cache writes has one of these names. -/
structure IsApart (cache : Cache) (spared : Set (List String)) : Prop where
  /-- The files of results. -/
  entry : ∀ fingerprint : Fingerprint, fingerprint.IsValid →
    Path.Avoids spared (cache.entryPath fingerprint)
  /-- The lists of chunks. -/
  index : ∀ chunkId, Path.Avoids spared (cache.indexPath chunkId)

theorem isApart_empty (cache : Cache) :
  cache.IsApart ∅
  := by
  constructor
  · intro fingerprint _ tree
    exact ⟨Set.notMem_empty _, Set.notMem_empty _⟩
  · intro chunkId tree
    exact ⟨Set.notMem_empty _, Set.notMem_empty _⟩

theorem fileName?_entryPath (cache : Cache) {fingerprint : Fingerprint} (h : fingerprint.IsValid) :
  Path.fileName? (cache.entryPath fingerprint) = some (fileName fingerprint.text)
  := by
  have hnames : (entryNames fingerprint).foldl Path.join cache.root = Path.join
      (["entries", fingerprint.shards.1, fingerprint.shards.2].foldl Path.join cache.root)
      (fileName fingerprint.text) := rfl
  rw [entryPath_eq, hnames]
  apply Path.fileName?_join _ (isShortName_fileName h).toIsName

theorem fileName?_indexPath (cache : Cache) (chunkId : String) :
  Path.fileName? (cache.indexPath chunkId) = some (fileName (Sha256.ofText chunkId))
  := Path.fileName?_join _ (isShortName_fileName (Fingerprint.isValid_digest chunkId)).toIsName

theorem isApart_of_names (cache : Cache) {spared : Set (List String)}
    (h : ∀ (front : List String) (fingerprint : Fingerprint), fingerprint.IsValid →
      front ++ [fileName fingerprint.text] ∉ spared
        ∧ front ++ [fileName fingerprint.text ++ Path.temporaryEnding] ∉ spared) :
  cache.IsApart spared
  := by
  constructor
  · intro fingerprint hvalid
    apply Path.avoids_of_fileName (cache.fileName?_entryPath hvalid)
    intro front
    apply h front fingerprint hvalid
  · intro chunkId
    apply Path.avoids_of_fileName (cache.fileName?_indexPath chunkId)
    intro front
    apply h front _ (Fingerprint.isValid_digest chunkId)

variable {cache : Cache} {spared : Set (List String)} (h : cache.IsApart spared)

include h

theorem IsApart.spares_addToIndex (chunkId : String) (fingerprint : Fingerprint) :
  FileAction.Spares spared (cache.addToIndex chunkId fingerprint)
  := by
  apply FileAction.Spares.get_bind
  intro tree
  dsimp only
  split
  · apply FileAction.Spares.pure
  · apply FileAction.Spares.writeJson (cache.fileName?_indexPath chunkId) (h.index chunkId)

theorem IsApart.spares_store {key : CacheKey} (hkey : key.fingerprint.IsValid) (result : Json)
    (now : Nat) :
  FileAction.Spares spared (cache.store key result now)
  := by
  apply FileAction.Spares.bind
  · apply FileAction.Spares.writeJson (cache.fileName?_entryPath hkey) (h.entry _ hkey)
  · intro _
    apply FileAction.Spares.bind
    · apply h.spares_addToIndex
    · intro _
      apply FileAction.Spares.pure

theorem IsApart.spares_removeEntries (texts : List String) :
  FileAction.Spares spared (cache.removeEntries texts)
  := by
  induction texts with
  | nil => apply FileAction.Spares.pure
  | cons text rest ih =>
      rw [removeEntries]
      cases hfingerprint : Fingerprint.ofText? text with
      | none => apply ih
      | some fingerprint =>
          obtain ⟨-, hvalid⟩ := Fingerprint.of_ofText?_eq_some hfingerprint
          apply FileAction.Spares.bind
          · apply FileAction.Spares.removeIfThere
            intro tree
            apply (h.entry fingerprint hvalid tree).1
          · intro _
            apply FileAction.Spares.bind ih
            intro _
            apply FileAction.Spares.pure

theorem IsApart.spares_invalidate (chunkId : String) :
  FileAction.Spares spared (cache.invalidate chunkId)
  := by
  apply FileAction.Spares.get_bind
  intro tree
  split
  · apply FileAction.Spares.pure
  · apply FileAction.Spares.bind
    · apply h.spares_removeEntries
    · intro _
      apply FileAction.Spares.bind
      · apply FileAction.Spares.removeIfThere
        intro tree
        apply (h.index _ tree).1
      · intro _
        apply FileAction.Spares.pure

end Cache

end Scrutiny

/-!
## What a cache holds

If all entries of a cache have a property, they have it after results were removed, after files
elsewhere were written, and after entries with this property were written, even if a write stops on the
way.
-/

namespace Scrutiny

theorem FileAction.holds_of_bind {α β : Type} {P : FileTree → Prop} {action : FileAction α}
    {later : α → FileAction β} {tree : FileTree} (h : P (action tree).2)
    (hlater : ∀ a next, P next → P (later a next).2) :
  P ((action >>= later) tree).2
  := by
  rcases haction : action tree with ⟨e | a, middle⟩
  · rw [haction] at h
    rw [bind_of_error later haction]
    apply h
  · rw [haction] at h
    rw [bind_of_ok later haction]
    apply hlater a middle h

namespace Cache

variable {cache : Cache} {P : CacheEntry → Prop} {tree next : FileTree}

/-- All entries that can be read from the bytes of a file have a property. -/
def ReadsOnly (P : CacheEntry → Prop) (bytes : List UInt8) : Prop :=
  ∀ entry, CacheEntry.ofBytes? bytes = some entry → P entry

/-- All entries of a cache have a property. -/
structure HoldsOnly (cache : Cache) (P : CacheEntry → Prop) (tree : FileTree) : Prop where
  hasFolder : tree.HasFolder cache.root
  readsOnly : ∀ fingerprint : Fingerprint, fingerprint.IsValid → ∀ bytes,
    cache.files tree (entryNames fingerprint) = some bytes → ReadsOnly P bytes

/-- There are no results in the cache. -/
def IsEmpty (cache : Cache) (tree : FileTree) : Prop :=
  ∀ fingerprint : Fingerprint, fingerprint.IsValid → cache.files tree (entryNames fingerprint) = none

theorem IsEmpty.holdsOnly (h : cache.IsEmpty tree) (hroot : tree.HasFolder cache.root) :
  cache.HoldsOnly P tree
  := by
  use hroot
  intro fingerprint hvalid bytes hbytes
  rw [h fingerprint hvalid] at hbytes
  cases hbytes

theorem IsUnused.isEmpty (h : IsUnused tree) :
  IsEmpty ⟨"cache"⟩ tree
  := by
  intro fingerprint _
  rw [files, h.base_eq]
  apply h.file?_below
  apply List.prefix_append

theorem HoldsOnly.of_lookup (h : cache.HoldsOnly P tree) {fingerprint : Fingerprint}
    (hvalid : fingerprint.IsValid) {entry : CacheEntry}
    (hfound : cache.lookup tree fingerprint = some entry) :
  P entry
  := by
  rw [lookup_eq (isOpen_of_hasFolder h.hasFolder) hvalid] at hfound
  obtain ⟨found, hread, hentry⟩ := Option.bind_eq_some_iff.mp hfound
  obtain ⟨bytes, hbytes, hread⟩ := Option.bind_eq_some_iff.mp hread
  obtain ⟨-, heq⟩ := Option.ite_none_right_eq_some.mp hentry
  obtain rfl := Option.some.inj heq
  apply h.readsOnly fingerprint hvalid bytes hbytes found hread

/-- The files of results stay, are removed, or have new entries with the property. -/
theorem HoldsOnly.of_keeps (h : cache.HoldsOnly P tree) (hkeeps : tree.Keeps next)
    (hfiles : ∀ fingerprint : Fingerprint, fingerprint.IsValid → ∀ bytes,
      cache.files next (entryNames fingerprint) = some bytes →
      cache.files tree (entryNames fingerprint) = some bytes ∨ ReadsOnly P bytes) :
  cache.HoldsOnly P next
  := by
  use h.hasFolder.of_keeps hkeeps
  intro fingerprint hvalid bytes hbytes
  rcases hfiles fingerprint hvalid bytes hbytes with hold | hnew
  · apply h.readsOnly fingerprint hvalid bytes hold
  · apply hnew

/-! ### Files elsewhere -/

/-- The names of files that are called as those of results are. -/
def resultNames : Set (List String) :=
  {names | ∃ front, ∃ fingerprint : Fingerprint, fingerprint.IsValid
    ∧ names = front ++ [fileName fingerprint.text]}

/-- A file that is not called as those of results are can be written. -/
theorem avoids_resultNames {path name : String} (hname : Path.fileName? path = some name)
    (hother : ∀ fingerprint : Fingerprint, fingerprint.IsValid → name ≠ fileName fingerprint.text) :
  Path.Avoids resultNames path
  := by
  intro tree
  constructor
  · rintro ⟨front, fingerprint, hvalid, hnames⟩
    have hlast := tree.getLast?_namesOf hname
    rw [hnames, List.getLast?_concat] at hlast
    apply hother fingerprint hvalid (Option.some.inj hlast).symm
  · rintro ⟨front, fingerprint, -, hnames⟩
    have hlast := tree.getLast?_namesOf_temporary hname
    rw [hnames, List.getLast?_concat] at hlast
    apply not_isTemporary_concat_fileName front fingerprint.text
    use front, name
    rw [Option.some.inj hlast]

theorem HoldsOnly.of_spares (h : cache.HoldsOnly P tree)
    (hspares : FileTree.Spares resultNames tree next) :
  cache.HoldsOnly P next
  := by
  apply h.of_keeps hspares.toKeeps
  intro fingerprint hvalid bytes hbytes
  rw [files, hspares.base_eq, hspares.file?_eq] at hbytes
  · exact .inl hbytes
  · use tree.base cache.root ++ ["entries", fingerprint.shards.1, fingerprint.shards.2], fingerprint,
      hvalid
    rw [List.append_assoc]
    rfl

/-! ### Removing results -/

theorem HoldsOnly.removeIfThere (h : cache.HoldsOnly P tree) (path : String) :
  cache.HoldsOnly P (FileAction.removeIfThere path tree).2
  := by
  rw [FileAction.snd_removeIfThere]
  rcases FileAction.remove_eq_or_sets h.hasFolder.sound path with heq | hsets
  · rw [heq]
    apply h
  · apply h.of_keeps hsets.toKeeps
    intro fingerprint _ bytes hbytes
    rw [files, hsets.base_eq] at hbytes
    by_cases hnames : tree.base cache.root ++ entryNames fingerprint = tree.namesOf path
    · rw [hnames, hsets.file?_self] at hbytes
      cases hbytes
    · rw [hsets.file?_ne _ hnames] at hbytes
      exact .inl hbytes

theorem HoldsOnly.removeEntries (h : cache.HoldsOnly P tree) (texts : List String) :
  cache.HoldsOnly P (cache.removeEntries texts tree).2
  := by
  induction texts generalizing tree with
  | nil => apply h
  | cons text rest ih =>
      rw [Cache.removeEntries]
      cases Fingerprint.ofText? text with
      | none => apply ih h
      | some fingerprint =>
          apply FileAction.holds_of_bind (h.removeIfThere _)
          intro removed middle hmiddle
          apply FileAction.holds_of_bind (ih hmiddle)
          intro others last hlast
          apply hlast

theorem HoldsOnly.invalidate (h : cache.HoldsOnly P tree) (chunkId : String) :
  cache.HoldsOnly P (cache.invalidate chunkId tree).2
  := by
  rw [Cache.invalidate, FileAction.get_bind]
  cases cache.index? tree (parentId chunkId) with
  | none => apply h
  | some index =>
      apply FileAction.holds_of_bind (h.removeEntries index.fingerprints)
      intro removed middle hmiddle
      apply FileAction.holds_of_bind (hmiddle.removeIfThere _)
      intro gone last hlast
      apply hlast

/-! ### Writing results -/

/-- The file of a result has its old bytes, or new ones that are good. -/
theorem HoldsOnly.of_oldOrNew_entry (h : cache.HoldsOnly P tree) {fingerprint : Fingerprint}
    (hvalid : fingerprint.IsValid) {bytes : List UInt8} (hbytes : ReadsOnly P bytes)
    (hwritten : FileTree.OldOrNew (cache.entryPath fingerprint) bytes tree next) :
  cache.HoldsOnly P next
  := by
  have hnames := namesOf_entryPath cache tree hvalid
  have htemporary := isTemporary_entryPath cache tree hvalid
  apply h.of_keeps hwritten.toKeeps
  intro other _ found hfound
  by_cases heq : entryNames other = entryNames fingerprint
  · have hself := hwritten.old_or_new
    rw [hnames] at hself
    rw [files, hwritten.base_eq, heq] at hfound
    rw [files, heq]
    rcases hself with hold | hnew
    · rw [hold] at hfound
      exact .inl hfound
    · rw [hnew] at hfound
      rw [← Option.some.inj hfound]
      exact .inr hbytes
  · rw [files_of_oldOrNew_ne hnames htemporary hwritten (entryNames other) heq
      (not_isTemporary_entryNames _ _)] at hfound
    exact .inl hfound

/-- The list of a chunk is no result. -/
theorem HoldsOnly.of_oldOrNew_index (h : cache.HoldsOnly P tree) {chunkId : String}
    {bytes : List UInt8}
    (hwritten : FileTree.OldOrNew (cache.indexPath chunkId) bytes tree next) :
  cache.HoldsOnly P next
  := by
  apply h.of_keeps hwritten.toKeeps
  intro fingerprint _ found hfound
  rw [files_of_oldOrNew_ne (namesOf_indexPath cache tree chunkId)
    (isTemporary_indexPath cache tree chunkId) hwritten (entryNames fingerprint)
    (entryNames_ne_indexNames fingerprint chunkId) (not_isTemporary_entryNames _ _)] at hfound
  exact .inl hfound

theorem HoldsOnly.writeJson_entryPath (h : cache.HoldsOnly P tree) {fingerprint : Fingerprint}
    (hvalid : fingerprint.IsValid) {entry : CacheEntry} (hentry : ReadsOnly P entry.bytes) :
  cache.HoldsOnly P (FileAction.writeJson (cache.entryPath fingerprint) entry.toJson tree).2
  := by
  rcases hwrite : FileAction.writeJson (cache.entryPath fingerprint) entry.toJson tree
    with ⟨result, next⟩
  obtain ⟨hwritten, -⟩ := FileAction.oldOrNew_of_writeAtomic h.hasFolder.sound
    (cache.fileName?_entryPath hvalid) hwrite
  apply h.of_oldOrNew_entry hvalid hentry hwritten

theorem HoldsOnly.addToIndex (h : cache.HoldsOnly P tree) (chunkId : String)
    (fingerprint : Fingerprint) :
  cache.HoldsOnly P (cache.addToIndex chunkId fingerprint tree).2
  := by
  rw [Cache.addToIndex, FileAction.get_bind]
  dsimp only
  split
  · apply h
  · rcases hwrite : FileAction.writeJson (cache.indexPath chunkId) _ tree with ⟨result, next⟩
    obtain ⟨hwritten, -⟩ := FileAction.oldOrNew_of_writeAtomic h.hasFolder.sound
      (cache.fileName?_indexPath chunkId) hwrite
    apply h.of_oldOrNew_index hwritten

/-- Wherever storing a good result is interrupted, only good results are left. -/
theorem HoldsOnly.of_storeInterrupted (h : cache.HoldsOnly P tree) {key : CacheKey}
    (hvalid : key.fingerprint.IsValid) {result : Json} {now : Nat}
    (hentry : ReadsOnly P (CacheEntry.ofKey key result now).bytes)
    (hstore : cache.StoreInterrupted key result now tree next) :
  cache.HoldsOnly P next
  := by
  cases hstore with
  | inEntry hwrite =>
      apply h.of_oldOrNew_entry hvalid hentry
      apply hwrite.oldOrNew h.hasFolder.sound
      apply tree.namesOf_temporary_ne (cache.fileName?_entryPath hvalid)
  | @inIndex middle _ hwritten _ hwrite =>
      have hmiddle := h.writeJson_entryPath hvalid hentry
      rw [hwritten] at hmiddle
      apply hmiddle.of_oldOrNew_index
      apply hwrite.oldOrNew hmiddle.hasFolder.sound
      apply middle.namesOf_temporary_ne (cache.fileName?_indexPath key.indexId)

end Cache

end Scrutiny
