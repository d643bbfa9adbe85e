import Scrutiny.Inference.Reply
import Scrutiny.Proofs.Cache.Reread
import Scrutiny.Proofs.Files.Place

/-!
# Writing results

What can be written to a cache, where it is written, and which replies of a model are found again.
-/

/-!
## What becomes of a cache while results are kept

Writing the file of a result or the list of a chunk may fail.  Whatever comes of it, no other result
changes.  Whether the file of a result can be written depends on what stands in its way, and that
is not changed by other results and lists.
-/

namespace Scrutiny.Cache

open FileAction FileTree

variable {cache : Cache} {tree next : FileTree}

/-! ### The places of results and lists -/

theorem isPlace_entry {fingerprint : Fingerprint} (hvalid : fingerprint.IsValid) :
  IsPlace ["entries", fingerprint.shards.1] fingerprint.shards.2 (fileName fingerprint.text)
  := by
  have hnames : ∀ other ∈ entryNames fingerprint, IsShortName other :=
    fun other hother => isShortName_of_mem_entryNames hvalid hother
  constructor
  · intro other hother
    apply (hnames other hother).toIsName
  · intro other hother
    apply (hnames other _).utf8ByteSize_le
    apply List.mem_append_left [fileName fingerprint.text] hother
  · have hending : ".json".utf8ByteSize = 5 := by decide
    have htemporary : Path.temporaryEnding.utf8ByteSize = 4 := by decide
    rw [fileName, String.utf8ByteSize_append, String.utf8ByteSize_append,
      hvalid.isHex.utf8ByteSize_eq, hvalid.length_eq, hending, htemporary]
    decide

theorem isPlace_index (chunkId : String) :
  IsPlace ["chunks"] (String.ofList ((Sha256.ofText chunkId).toList.take 2))
    (fileName (Sha256.ofText chunkId))
  := by
  have hdigest := Fingerprint.isValid_digest chunkId
  have hnames : ∀ other ∈ indexNames chunkId, IsShortName other :=
    fun other hother => isShortName_of_mem_indexNames hother
  constructor
  · intro other hother
    apply (hnames other hother).toIsName
  · intro other hother
    apply (hnames other _).utf8ByteSize_le
    apply List.mem_append_left [fileName (Sha256.ofText chunkId)] hother
  · have hsize : (Sha256.ofText chunkId).utf8ByteSize = 64 := by
      rw [hdigest.isHex.utf8ByteSize_eq]
      apply hdigest.length_eq
    have hending : ".json".utf8ByteSize = 5 := by decide
    have htemporary : Path.temporaryEnding.utf8ByteSize = 4 := by decide
    rw [fileName, String.utf8ByteSize_append, String.utf8ByteSize_append, hsize, hending, htemporary]
    decide

/-- The names that are touched when a result is written. -/
def entryPlace (cache : Cache) (tree : FileTree) (fingerprint : Fingerprint) : Set (List String) :=
  placeNames (tree.base cache.root) ["entries", fingerprint.shards.1] fingerprint.shards.2
    (fileName fingerprint.text)

/-- The names that are touched when a list is written. -/
def indexPlace (cache : Cache) (tree : FileTree) (chunkId : String) : Set (List String) :=
  placeNames (tree.base cache.root) ["chunks"]
    (String.ofList ((Sha256.ofText chunkId).toList.take 2)) (fileName (Sha256.ofText chunkId))

/-- Nothing stands where the file of a result is to be written. -/
def CanKeep (cache : Cache) (tree : FileTree) (fingerprint : Fingerprint) : Prop :=
  tree.IsFree (tree.base cache.root) ["entries", fingerprint.shards.1] fingerprint.shards.2
    (fileName fingerprint.text)

/-- Nothing stands where the list of a chunk is to be written. -/
def CanList (cache : Cache) (tree : FileTree) (chunkId : String) : Prop :=
  tree.IsFree (tree.base cache.root) ["chunks"]
    (String.ofList ((Sha256.ofText chunkId).toList.take 2)) (fileName (Sha256.ofText chunkId))

theorem entryNames_notMem_entryPlace {fingerprint other : Fingerprint} (hne : other ≠ fingerprint) :
  tree.base cache.root ++ entryNames other ∉ cache.entryPlace tree fingerprint
  := by
  rintro (heq | heq)
  · apply hne (entryNames_injective (List.append_cancel_left heq))
  · apply not_isTemporary_entryNames (tree.base cache.root) other
    use tree.base cache.root ++ ["entries", fingerprint.shards.1, fingerprint.shards.2],
      fileName fingerprint.text
    rw [heq]
    simp

theorem entryNames_notMem_indexPlace (fingerprint : Fingerprint) (chunkId : String) :
  tree.base cache.root ++ entryNames fingerprint ∉ cache.indexPlace tree chunkId
  := by
  rintro (heq | heq)
  · apply entryNames_ne_indexNames fingerprint chunkId (List.append_cancel_left heq)
  · have hlength := congrArg List.length heq
    simp [entryNames] at hlength

/-! ### What can be written -/

/-- Files elsewhere in the cache do not stand in the way of a result. -/
theorem canKeep_iff_of_touches {touched : Set (List String)} (h : Touches touched tree next)
    {fingerprint : Fingerprint}
    (hway : ∀ other ∈ touched, ¬ other <+: tree.base cache.root
      ++ ["entries", fingerprint.shards.1] ++ [fingerprint.shards.2])
    (hlength : ∀ other ∈ touched,
      other.length ≤ (tree.base cache.root ++ entryNames fingerprint).length) :
  cache.CanKeep next fingerprint ↔ cache.CanKeep tree fingerprint
  := by
  rw [CanKeep, CanKeep, h.base_eq]
  constructor
  · intro hfree
    apply hfree.of_touches_next h hway
  · intro hfree
    apply hfree.of_touches h hway
    intro other hother last hprefix
    apply hprefix.eq_of_length_le
    apply Nat.le_trans (hlength other hother)
    simp [entryNames]

theorem canKeep_iff_of_touches_entryPlace {fingerprint other : Fingerprint}
    (h : Touches (cache.entryPlace tree other) tree next) :
  cache.CanKeep next fingerprint ↔ cache.CanKeep tree fingerprint
  := by
  apply canKeep_iff_of_touches h
  · intro names hnames hprefix
    have := length_of_mem_placeNames hnames
    have := hprefix.length_le
    simp at *
    omega
  · intro names hnames
    rw [length_of_mem_placeNames hnames]
    simp [entryNames]

theorem canKeep_iff_of_touches_indexPlace {fingerprint : Fingerprint} {chunkId : String}
    (h : Touches (cache.indexPlace tree chunkId) tree next) :
  cache.CanKeep next fingerprint ↔ cache.CanKeep tree fingerprint
  := by
  apply canKeep_iff_of_touches h
  · intro names hnames hprefix
    have hlength := length_of_mem_placeNames hnames
    have heq := hprefix.eq_of_length (by rw [hlength]; simp)
    rcases hnames with hname | hname
    · rw [hname] at heq
      simp at heq
    · rw [hname] at heq
      simp at heq
  · intro names hnames
    rw [length_of_mem_placeNames hnames]
    simp [entryNames]

/-- Results do not stand in the way of lists. -/
theorem CanList.of_touches_entryPlace {chunkId : String} (h : cache.CanList tree chunkId)
    {fingerprint : Fingerprint} (htouches : Touches (cache.entryPlace tree fingerprint) tree next) :
  cache.CanList next chunkId
  := by
  rw [CanList, htouches.base_eq]
  apply h.of_touches htouches
  · intro names hnames hprefix
    have := length_of_mem_placeNames hnames
    have := hprefix.length_le
    simp at *
    omega
  · intro names hnames last hprefix
    rcases hnames with hname | hname
    · rw [hname, List.prefix_append_right_inj] at hprefix
      simp at hprefix
    · rw [hname, List.prefix_append_right_inj] at hprefix
      simp at hprefix

/-! ### Writing results and lists -/

theorem isOpen_of_hasFolder (h : tree.HasFolder cache.root) :
  cache.IsOpen tree
  := ⟨h.sound, h.reaches⟩

/-- The file of a result can be written exactly if nothing stands in its way. -/
theorem writeJson_entryPath_isOk_iff (hroot : tree.HasFolder cache.root) {fingerprint : Fingerprint}
    (hvalid : fingerprint.IsValid) (value : Json) :
  (∃ next, writeJson (cache.entryPath fingerprint) value tree = (.ok (), next))
    ↔ cache.CanKeep tree fingerprint
  := by
  constructor
  · rintro ⟨next, hwrite⟩
    apply (isPlace_entry hvalid).isFree_of_writeAtomic hroot hwrite
  · intro hfree
    apply (isPlace_entry hvalid).exists_writeAtomic hroot hfree

/-- Writing the file of a result, whatever comes of it, leaves all other results, and does not
change which results can be kept. -/
theorem of_writeJson_entryPath (hroot : tree.HasFolder cache.root) {fingerprint : Fingerprint}
    (hvalid : fingerprint.IsValid) {value : Json} {result : Except FileError Unit}
    (h : writeJson (cache.entryPath fingerprint) value tree = (result, next)) :
  next.HasFolder cache.root
    ∧ (∀ other, cache.CanKeep next other ↔ cache.CanKeep tree other)
    ∧ (∀ other, other.IsValid → other ≠ fingerprint →
      cache.lookup next other = cache.lookup tree other)
    ∧ cache.lookup next fingerprint
      = match result with
        | .ok _ => (CacheEntry.ofBytes? (Text.bytesOf value.pretty)).filter
          (·.fingerprint == fingerprint.text)
        | .error _ => cache.lookup tree fingerprint
  := by
  obtain ⟨htouches, hsame⟩ := (isPlace_entry hvalid).touches_of_writeAtomic hroot h
  have hroot' := hroot.of_keeps htouches.toKeeps
  use hroot'
  constructor
  · intro other
    exact @canKeep_iff_of_touches_entryPlace cache tree next other fingerprint htouches
  constructor
  · intro other hother hne
    rw [lookup_eq (isOpen_of_hasFolder hroot') hother, lookup_eq (isOpen_of_hasFolder hroot) hother,
      files, htouches.base_eq, htouches.file?_eq _ (entryNames_notMem_entryPlace hne), files]
  · cases result with
    | ok u => apply lookup_of_read (replaces_of_writeAtomic hroot.sound h).read_eq
    | error e =>
        have hfile := hsame e rfl
        rw [lookup_eq (isOpen_of_hasFolder hroot') hvalid,
          lookup_eq (isOpen_of_hasFolder hroot) hvalid, files, htouches.base_eq]
        dsimp only
        rw [files]
        rw [entryNames]
        rw [List.cons_append, List.singleton_append] at hfile
        rw [hfile]

/-- Adding a fingerprint to a list touches nothing but the place of the list. -/
theorem touches_of_addToIndex (hroot : tree.HasFolder cache.root) {chunkId : String}
    {fingerprint : Fingerprint} {result : Except FileError Unit}
    (h : cache.addToIndex chunkId fingerprint tree = (result, next)) :
  Touches (cache.indexPlace tree chunkId) tree next
  := by
  rw [addToIndex, get_bind] at h
  dsimp only at h
  split at h
  · obtain rfl : tree = next := congrArg Prod.snd h
    apply Touches.refl hroot.sound
  · apply ((isPlace_index chunkId).touches_of_writeAtomic hroot h).1

/-- Adding a fingerprint to a list, whatever comes of it, leaves all results, and does not change
which results can be kept. -/
theorem of_addToIndex (hroot : tree.HasFolder cache.root) {chunkId : String}
    {fingerprint : Fingerprint} {result : Except FileError Unit}
    (h : cache.addToIndex chunkId fingerprint tree = (result, next)) :
  next.HasFolder cache.root
    ∧ (∀ other, cache.CanKeep next other ↔ cache.CanKeep tree other)
    ∧ ∀ other, other.IsValid → cache.lookup next other = cache.lookup tree other
  := by
  have htouches := touches_of_addToIndex hroot h
  have hroot' := hroot.of_keeps htouches.toKeeps
  use hroot'
  constructor
  · intro other
    exact @canKeep_iff_of_touches_indexPlace cache tree next other chunkId htouches
  · intro other hother
    rw [lookup_eq (isOpen_of_hasFolder hroot') hother,
      lookup_eq (isOpen_of_hasFolder hroot) hother, files, htouches.base_eq,
      htouches.file?_eq _ (entryNames_notMem_indexPlace other chunkId), files]

/-- After its result was written, a store adds it to the index. -/
theorem snd_store_of_writeJson_eq_ok {key : CacheKey} {kept : Json} {now : Nat}
    (h : writeJson (cache.entryPath key.fingerprint) (CacheEntry.ofKey key kept now).toJson tree
      = (.ok (), next)) :
  (cache.store key kept now tree).2 = (cache.addToIndex key.indexId key.fingerprint next).2
  := by
  rw [store, bind_of_ok _ h]
  rcases hadd : cache.addToIndex key.indexId key.fingerprint next with ⟨e | ⟨⟩, last⟩
  · rw [bind_of_error _ hadd]
  · rw [bind_of_ok _ hadd]
    rfl

/-- A result can be stored if nothing stands where its file and the list of its chunk are to be
written. -/
theorem exists_store (hroot : tree.HasFolder cache.root) {key : CacheKey}
    (hkey : key.fingerprint.IsValid) (hkeep : cache.CanKeep tree key.fingerprint)
    (hlist : cache.CanList tree key.indexId) (result : Json) (now : Nat) :
  ∃ next, cache.store key result now tree = (.ok (CacheEntry.ofKey key result now), next)
  := by
  obtain ⟨middle, hentry⟩ := (writeJson_entryPath_isOk_iff hroot hkey
    (CacheEntry.ofKey key result now).toJson).mpr hkeep
  obtain ⟨htouches, -⟩ := (isPlace_entry hkey).touches_of_writeAtomic hroot hentry
  have hroot' := hroot.of_keeps htouches.toKeeps
  have hlist' : cache.CanList middle key.indexId :=
    @CanList.of_touches_entryPlace cache tree middle key.indexId hlist key.fingerprint htouches
  have hadd : ∃ next, cache.addToIndex key.indexId key.fingerprint middle = (.ok (), next) := by
    rw [addToIndex, get_bind]
    dsimp only
    split
    · use middle
      rfl
    · apply (isPlace_index key.indexId).exists_writeAtomic hroot' hlist'
  obtain ⟨next, hadd⟩ := hadd
  use next
  rw [store, bind_of_ok _ hentry, bind_of_ok _ hadd]
  rfl

/-- The folder of a cache that was opened exists. -/
theorem hasFolder_of_openAt (hsound : tree.Sound) {root : String}
    (h : openAt root tree = (.ok cache, next)) :
  cache.root = root ∧ next.HasFolder root
  := by
  obtain ⟨rfl, hopen, -⟩ := of_openAt_eq_ok hsound h
  obtain ⟨_, middle, hentries, h⟩ := bind_eq_ok h
  obtain ⟨_, last, hchunks, h⟩ := bind_eq_ok h
  obtain ⟨-, rfl⟩ := of_pure_eq_ok h
  obtain ⟨hgrows, -, hfolder⟩ := grows_of_createFolders hsound hentries
  obtain ⟨hgrows', -, -⟩ := grows_of_createFolders hgrows.sound hchunks
  use rfl, hopen.sound, hopen.reaches
  rw [hgrows'.base_eq, hgrows.base_eq]
  apply hgrows'.isFolderAt
  have hnames : tree.namesOf (Path.join root "entries") = tree.base root ++ ["entries"] :=
    @namesOf_foldl_join tree root ["entries"] (by simp) (by simp [isShortName_entries.toIsName])
  rw [hnames] at hfolder
  apply hfolder.of_append

/-! ### New caches -/

/-- There is nothing in the folder `cache` but the folders that are made when a cache is opened. -/
structure IsUnused (tree : FileTree) : Prop where
  hasFolder : tree.HasFolder "cache"
  base_eq : tree.base "cache" = ["cache"]
  file?_below : ∀ names, ["cache"] <+: names → tree.file? names = none
  length_le : ∀ names, tree.IsFolderAt names → names.length ≤ 2

/-- There is nothing but the folders that are made when a cache is opened. -/
structure IsNew (tree : FileTree) : Prop extends IsUnused tree where
  file?_eq : ∀ names, tree.file? names = none

theorem length_le_of_createFolders (hsound : tree.Sound)
    (hlength : ∀ names, tree.IsFolderAt names → names.length ≤ 2) {path folder name : String}
    (hpath : Path.components path = [.name folder, .name name]) (hhere : tree.here = [])
    {result : Except FileError Unit} (h : createFolders path tree = (result, next))
    {names : List String} (hnames : next.IsFolderAt names) :
  names.length ≤ 2
  := by
  have hcreate : createFolders path tree = makeFolders tree.here (Path.components path) tree := rfl
  have hcomponents : Path.components path = [folder, name].map .name := hpath
  rw [hcreate, hhere, hcomponents] at h
  have hmem : [] ++ [folder, name] ++ [""] ∈ ({[folder, name, ""]} : Set (List String)) := rfl
  have htouches := touches_of_makeFolders hsound hsound.root hmem h
  rcases htouches.isFolderAt_of names hnames with hold | ⟨other, rfl, hprefix, hne⟩
  · apply hlength names hold
  · have hlt : names.length < 3 := by
      apply lt_of_le_of_ne hprefix.length_le
      intro heq
      apply hne
      apply hprefix.eq_of_length heq
    omega

/-- A cache that was opened where there was none is unused. -/
theorem isUnused_of_openAt (hsound : tree.Sound) (hhere : tree.here = [])
    (hlength : ∀ names, tree.IsFolderAt names → names.length ≤ 2)
    (hfiles : ∀ names, ["cache"] <+: names → tree.file? names = none)
    (hopen : openAt "cache" tree = (.ok cache, next)) :
  IsUnused next
  := by
  obtain ⟨rfl, -, hgrows⟩ := of_openAt_eq_ok hsound hopen
  obtain ⟨-, hfolder⟩ := hasFolder_of_openAt hsound hopen
  use hfolder
  · rw [hgrows.base_eq, FileTree.base, hhere]
    decide +kernel
  · intro names hnames
    rw [hgrows.file?_eq]
    apply hfiles names hnames
  · intro names hnames
    obtain ⟨_, middle, hentries, h⟩ := bind_eq_ok hopen
    obtain ⟨_, last, hchunks, h⟩ := bind_eq_ok h
    obtain ⟨-, rfl⟩ := of_pure_eq_ok h
    have hgrows' := (grows_of_createFolders hsound hentries).1
    have hentriesPath : Path.components (Path.join "cache" "entries")
        = [.name "cache", .name "entries"] := by decide +kernel
    have hchunksPath : Path.components (Path.join "cache" "chunks")
        = [.name "cache", .name "chunks"] := by decide +kernel
    have hmiddle : ∀ names, middle.IsFolderAt names → names.length ≤ 2 := by
      intro names
      apply length_le_of_createFolders hsound hlength hentriesPath hhere hentries
    apply length_le_of_createFolders hgrows'.sound hmiddle hchunksPath (hgrows'.here_eq.trans hhere)
      hchunks hnames

/-- A cache can be opened where there is nothing. -/
theorem exists_isNew :
  ∃ tree, openAt "cache" .empty = (.ok ⟨"cache"⟩, tree) ∧ IsNew tree
  := by
  have hrun : (openAt "cache" .empty).1.toBool := by decide +kernel
  cases hopen : openAt "cache" .empty with
  | mk result tree =>
      cases result with
      | error e =>
          rw [hopen] at hrun
          cases hrun
      | ok cache =>
          obtain ⟨rfl, -, hgrows⟩ := of_openAt_eq_ok sound_empty hopen
          have hempty (names : List String) : empty.file? names = none := by
            cases names <;> rfl
          use tree, rfl
          constructor
          · apply isUnused_of_openAt sound_empty rfl _ (fun names _ => hempty names) hopen
            rintro names ⟨entries, hat⟩
            cases names with
            | nil => apply Nat.zero_le
            | cons name rest => cases hat
          · intro names
            rw [hgrows.file?_eq, hempty]

/-- No file stands on the way to the places of an unused cache. -/
theorem IsUnused.file?_way (h : IsUnused tree) {others names : List String}
    (hnames : names <+: "cache" :: others) :
  tree.file? names = none
  := by
  cases names with
  | nil =>
      cases hfile : tree.file? [] with
      | none => rfl
      | some bytes => cases FileTree.not_isFolderAt_of_file? hfile h.hasFolder.sound.root
  | cons first rest =>
      obtain ⟨rfl, -⟩ := List.cons_prefix_cons.mp hnames
      apply h.file?_below
      use rest
      rfl

theorem IsUnused.isFree (h : IsUnused tree) (front : List String) (folder name : String) :
  tree.IsFree (tree.base "cache") front folder name
  := by
  have hfolder (last : String) : ¬ tree.IsFolderAt (tree.base "cache" ++ (front ++ [folder, last])) := by
    intro hlast
    rw [h.base_eq] at hlast
    have hlength := h.length_le _ hlast
    simp at hlength
  constructor
  · intro names hnames
    rw [h.base_eq] at hnames
    apply h.file?_way hnames
  · apply hfolder
  · apply hfolder

/-- All results can be kept in an unused cache. -/
theorem IsUnused.canKeep (h : IsUnused tree) (fingerprint : Fingerprint) :
  CanKeep ⟨"cache"⟩ tree fingerprint
  := h.isFree _ _ _

/-- All chunks can have a list in an unused cache. -/
theorem IsUnused.canList (h : IsUnused tree) (chunkId : String) :
  CanList ⟨"cache"⟩ tree chunkId
  := h.isFree _ _ _

theorem IsUnused.lookup_eq_none (h : IsUnused tree) {fingerprint : Fingerprint}
    (hvalid : fingerprint.IsValid) :
  lookup ⟨"cache"⟩ tree fingerprint = none
  := by
  rw [lookup_eq (isOpen_of_hasFolder h.hasFolder) hvalid, files, h.base_eq,
    h.file?_below _ (List.prefix_append _ _)]
  rfl

/-- There is nothing to be removed from an unused cache. -/
theorem IsUnused.invalidate_eq (h : IsUnused tree) (chunkId : String) :
  invalidate ⟨"cache"⟩ chunkId tree = (.ok 0, tree)
  := by
  have hindex : index? ⟨"cache"⟩ tree (parentId chunkId) = none := by
    rw [index?_eq (isOpen_of_hasFolder h.hasFolder), files, h.base_eq,
      h.file?_below _ (List.prefix_append _ _)]
    rfl
  rw [invalidate, FileAction.get_bind, hindex]
  rfl

end Scrutiny.Cache

/-!
## Replies in the cache

A reply may be nested 127 levels deep.  A reply that is nested so deeply is accepted and stored, but
its entry is nested too deeply to be read again; all others without doubles are found as they were.
-/

namespace Scrutiny

open Json

/-- A reply that is accepted is an object as values are: it can be held, its fields are in order,
and it is nested at most 127 levels deep. -/
theorem Reply.of_objectIn?_eq_some {text : List Char} {value : Json}
    (h : Reply.objectIn? text = some value) :
  value.IsNormal ∧ value.Fits ∧ value.depth ≤ 127
  := by
  have hobject {text : List Char} (h : Reply.object? text = some value) :
      value.IsNormal ∧ value.Fits ∧ value.depth ≤ 127 := by
    rw [Reply.object?] at h
    split at h
    · rename_i fields hread
      obtain rfl := Option.some.inj h
      obtain ⟨hnormal, hfits⟩ := of_read_eq_ok hread
      use hnormal, hfits
      apply Nat.le_of_lt_succ (depth_lt_of_read_eq_ok hread)
    · cases h
  rcases Option.or_eq_some_iff.mp h with h | ⟨-, h⟩
  · apply hobject h
  · obtain ⟨part, -, h⟩ := Option.bind_eq_some_iff.mp h
    apply hobject h

namespace Cache

variable {cache : Cache} {tree next : FileTree}

/-- A reply without doubles that was stored is found as it was, unless it is nested as deeply as a
reply may be. -/
theorem lookup_of_store_reply (hsound : tree.Sound) {reply : String} {value : Json}
    (hreply : Reply.objectIn? reply.toList = some value) (hwhole : value.IsWhole) {key : CacheKey}
    (hkey : key.fingerprint.IsValid) {now : Nat} (hnow : now < 2 ^ 64) {entry : CacheEntry}
    (h : cache.store key value now tree = (.ok entry, next)) :
  value.depth ≤ 127
    ∧ cache.lookup next key.fingerprint
      = if value.depth ≤ 126 then some (CacheEntry.ofKey key value now) else none
  := by
  obtain ⟨hnormal, hfits, hdepth⟩ := Reply.of_objectIn?_eq_some hreply
  use hdepth
  have hfound := lookup_of_store hsound hkey hnormal hfits hnow h
  rw [hwhole.reread_eq hfits] at hfound
  apply hfound

/-- An object around `n` arrays inside each other. -/
def nestedText (n : Nat) : List Char :=
  "\x7b\"x\": ".toList ++ List.replicate n '[' ++ List.replicate n ']' ++ ['\x7d']

/-- A key for replies that are nested deeply. -/
def nestedKey : CacheKey where
  fingerprint := .compute "def f(): pass" "security" "m" none
  chunkId := "a.py:f"
  reviewer := "security"
  model := "m"

/-- Such a text is accepted as a reply if it is nested at most 127 levels deep. -/
theorem exists_objectIn?_nestedText {n : Nat} (hn : n = 125 ∨ n = 126) :
  ∃ value, Reply.objectIn? (String.ofList (nestedText n)).toList = some value ∧ value.IsWhole
    ∧ value.depth = n + 1
  := by
  have hshape : (Reply.objectIn? (nestedText n)).map (fun value => (value.numbers, value.depth))
      = some ([], n + 1) := by
    rcases hn with rfl | rfl <;> decide +kernel
  obtain ⟨value, hvalue, hpair⟩ := Option.map_eq_some_iff.mp hshape
  obtain ⟨hnumbers, hdepth⟩ := Prod.mk.inj hpair
  rw [String.toList_ofList]
  use value, hvalue
  use ?_, hdepth
  rw [IsWhole, hnumbers]
  intro m hm
  cases hm

/-- A reply that is nested 126 levels deep is found as it was. -/
theorem lookup_of_store_reply_nestedText :
  ∃ value tree entry next, Reply.objectIn? (String.ofList (nestedText 125)).toList = some value
    ∧ value.IsWhole ∧ openAt "cache" .empty = (.ok ⟨"cache"⟩, tree)
    ∧ store ⟨"cache"⟩ nestedKey value 0 tree = (.ok entry, next)
    ∧ lookup ⟨"cache"⟩ next nestedKey.fingerprint = some (.ofKey nestedKey value 0)
  := by
  obtain ⟨value, hreply, hwhole, hdepth⟩ := exists_objectIn?_nestedText (.inl rfl)
  obtain ⟨tree, hopen, hnew⟩ := exists_isNew
  have hkey : nestedKey.fingerprint.IsValid := Fingerprint.isValid_compute _ _ _ _
  obtain ⟨next, hstore⟩ := exists_store hnew.hasFolder hkey (hnew.canKeep _) (hnew.canList _) value 0
  obtain ⟨-, hfound⟩ :=
    lookup_of_store_reply hnew.hasFolder.sound hreply hwhole hkey (by decide) hstore
  rw [hdepth, if_pos (by decide)] at hfound
  use value, tree, .ofKey nestedKey value 0, next

/-- A reply that is nested 127 levels deep is accepted and stored, but not found again. -/
theorem not_found_of_store_nestedText :
  ∃ value tree entry next, Reply.objectIn? (String.ofList (nestedText 126)).toList = some value
    ∧ value.IsWhole ∧ openAt "cache" .empty = (.ok ⟨"cache"⟩, tree)
    ∧ store ⟨"cache"⟩ nestedKey value 0 tree = (.ok entry, next)
    ∧ lookup ⟨"cache"⟩ next nestedKey.fingerprint = none
  := by
  obtain ⟨value, hreply, hwhole, hdepth⟩ := exists_objectIn?_nestedText (.inr rfl)
  obtain ⟨hnormal, hfits, -⟩ := Reply.of_objectIn?_eq_some hreply
  obtain ⟨tree, hopen, hnew⟩ := exists_isNew
  have hkey : nestedKey.fingerprint.IsValid := Fingerprint.isValid_compute _ _ _ _
  obtain ⟨next, hstore⟩ := exists_store hnew.hasFolder hkey (hnew.canKeep _) (hnew.canList _) value 0
  have hfound := lookup_of_store hnew.hasFolder.sound hkey hnormal hfits (by decide) hstore
  rw [if_neg (by omega)] at hfound
  use value, tree, .ofKey nestedKey value 0, next

end Cache

end Scrutiny
