import Mathlib.Data.Finset.Dedup
import Mathlib.Data.Set.Function
import Scrutiny.Proofs.Cache.Contents
import Scrutiny.Proofs.Cache.Store
import Scrutiny.Proofs.Cache.Writing

/-!
# The cache behaves as two maps

The files of a cache stand for two maps: the file of each fingerprint has its result, and the
file of each chunk lists its fingerprints.  Each operation that succeeds does to the files what
it does to the maps and gives the same answer, and so does each sequence of operations.
-/

namespace Scrutiny.Cache

open FileAction

/-! ### Files and maps -/

/-- A file lists the fingerprints of a chunk, each of them once; it is missing if there are none. -/
def Lists (bytes? : Option (List UInt8)) (id : String) (fingerprints : Finset Fingerprint) : Prop :=
  ∃ list : List Fingerprint, list.Nodup ∧ list.toFinset = fingerprints
    ∧ bytes? = if list = [] then none else some (ChunkIndex.bytes ⟨id, list.map (·.text)⟩)

/-- The files stand for the maps, as far as the chunks `ids` are concerned.  There are no files but
those of results and lists, and no list but of these chunks. -/
structure Represents (ids : Set String) (files : List String → Option (List UInt8))
    (contents : Contents) : Prop where
  entry : ∀ fingerprint, fingerprint.IsValid →
    files (entryNames fingerprint) = (contents.entries fingerprint).map CacheEntry.bytes
  index : ∀ id ∈ ids, Lists (files (indexNames id)) id (contents.listed id)
  only : ∀ names bytes, files names = some bytes →
    (∃ fingerprint, fingerprint.IsValid ∧ names = entryNames fingerprint)
      ∨ ∃ id, names = indexNames id
  listed : ∀ id, ∀ fingerprint ∈ contents.listed id, id ∈ ids

section

variable {ids : Set String} {files next : List String → Option (List UInt8)} {contents : Contents}

theorem represents_empty (h : ∀ names, files names = none) :
  Represents ids files .empty
  := by
  constructor
  · intro fingerprint _
    rw [h]
    rfl
  · intro id _
    use [], List.nodup_nil, rfl
    rw [h, if_pos rfl]
  · intro names bytes hbytes
    rw [h] at hbytes
    cases hbytes
  · intro id fingerprint hmem
    cases Finset.notMem_empty _ hmem

theorem indexNames_ne (hsha : ids.InjOn Sha256.ofText) {id other : String} (hid : id ∈ ids)
    (hother : other ∈ ids) (hne : other ≠ id) :
  indexNames other ≠ indexNames id
  := by
  intro heq
  apply hne (hsha hother hid (ofText_eq_of_indexNames_eq heq))

/-- A result and its place in the list of its chunk are stored. -/
theorem Represents.store (h : Represents ids files contents) (hsha : ids.InjOn Sha256.ofText)
    {fingerprint : Fingerprint} (hvalid : fingerprint.IsValid) {entry : CacheEntry}
    (hid : parentId entry.chunkId ∈ ids)
    (hentry : next (entryNames fingerprint) = some entry.bytes)
    (hindex : Lists (next (indexNames (parentId entry.chunkId))) (parentId entry.chunkId)
      (insert fingerprint (contents.listed (parentId entry.chunkId))))
    (hother : ∀ names, names ≠ entryNames fingerprint →
      names ≠ indexNames (parentId entry.chunkId) → next names = files names) :
  Represents ids next (contents.store entry fingerprint)
  := by
  constructor
  · intro other hother'
    by_cases heq : other = fingerprint
    · rw [heq, hentry, Contents.entries_store_self]
      rfl
    · rw [Contents.entries_store_ne _ heq, ← h.entry other hother']
      apply hother
      · intro hnames
        apply heq (entryNames_injective hnames)
      · apply entryNames_ne_indexNames
  · intro id hmem
    by_cases heq : id = parentId entry.chunkId
    · rw [heq, Contents.listed_store_self]
      apply hindex
    · rw [Contents.listed_store_ne _ _ heq,
        hother _ (entryNames_ne_indexNames _ _).symm (indexNames_ne hsha hid hmem heq)]
      apply h.index id hmem
  · intro names bytes hbytes
    by_cases hnames : names = entryNames fingerprint
    · left
      use fingerprint, hvalid
    by_cases hnames' : names = indexNames (parentId entry.chunkId)
    · right
      use parentId entry.chunkId
    rw [hother names hnames hnames'] at hbytes
    apply h.only names bytes hbytes
  · intro id other hmem
    rcases (Contents.mem_listed_store _ _ _ _).mp hmem with hmem | ⟨rfl, -⟩
    · apply h.listed id other hmem
    · apply hid

/-- The results that are listed under a chunk are removed, and so is the list. -/
theorem Represents.invalidate (h : Represents ids files contents) (hsha : ids.InjOn Sha256.ofText)
    {id : String} (hid : id ∈ ids)
    (hgone : ∀ fingerprint ∈ contents.listed id, next (entryNames fingerprint) = none)
    (hindex : next (indexNames id) = none)
    (hother : ∀ names, (∀ fingerprint ∈ contents.listed id, names ≠ entryNames fingerprint) →
      names ≠ indexNames id → next names = files names) :
  Represents ids next (contents.invalidate id)
  := by
  constructor
  · intro fingerprint hvalid
    by_cases hmem : fingerprint ∈ contents.listed id
    · rw [hgone fingerprint hmem, Contents.entries_invalidate_of_mem hmem]
      rfl
    · rw [Contents.entries_invalidate_of_notMem hmem, ← h.entry fingerprint hvalid]
      apply hother
      · intro other hother heq
        rw [entryNames_injective heq] at hmem
        apply hmem hother
      · apply entryNames_ne_indexNames
  · intro other hmem
    by_cases heq : other = id
    · rw [heq, hindex, Contents.listed_invalidate_self]
      use [], List.nodup_nil, rfl
      rw [if_pos rfl]
    · rw [Contents.listed_invalidate_ne heq,
        hother _ (fun _ _ => (entryNames_ne_indexNames _ _).symm) (indexNames_ne hsha hid hmem heq)]
      apply h.index other hmem
  · intro names bytes hbytes
    by_cases hnames : ∃ fingerprint ∈ contents.listed id, names = entryNames fingerprint
    · obtain ⟨fingerprint, hmem, rfl⟩ := hnames
      rw [hgone fingerprint hmem] at hbytes
      cases hbytes
    by_cases hnames' : names = indexNames id
    · right
      use id
    rw [hother names (fun fingerprint hmem heq => hnames ⟨fingerprint, hmem, heq⟩) hnames'] at hbytes
    apply h.only names bytes hbytes
  · intro other fingerprint hmem
    by_cases heq : other = id
    · rw [heq]
      apply hid
    · rw [Contents.listed_invalidate_ne heq] at hmem
      apply h.listed other fingerprint hmem

end

/-! ### One operation -/

/-- The cache is open, and its files stand for the maps. -/
structure Holds (ids : Set String) (cache : Cache) (tree : FileTree) (contents : Contents) : Prop
    extends cache.IsOpen tree where
  represents : Represents ids (cache.files tree) contents
  proper : contents.IsProper

variable {ids : Set String} {cache : Cache} {tree next : FileTree} {contents : Contents}

theorem Holds.isTidy (h : Holds ids cache tree contents) :
  cache.IsTidy tree
  := by
  intro names htemporary
  cases hfile : cache.files tree names with
  | none => rfl
  | some bytes =>
      rcases h.represents.only names bytes hfile with ⟨fingerprint, -, rfl⟩ | ⟨id, rfl⟩
      · cases not_isTemporary_entryNames _ _ htemporary
      · cases not_isTemporary_indexNames _ _ htemporary

/-- What is looked up is the result under the fingerprint. -/
theorem Holds.lookup_eq (h : Holds ids cache tree contents) {fingerprint : Fingerprint}
    (hvalid : fingerprint.IsValid) :
  cache.lookup tree fingerprint = contents.entries fingerprint
  := by
  rw [Cache.lookup_eq h.toIsOpen hvalid, h.represents.entry fingerprint hvalid]
  cases hentry : contents.entries fingerprint with
  | none => rfl
  | some entry =>
      obtain ⟨hresult, hcreated⟩ := h.proper.storable fingerprint entry hentry
      rw [Option.map_some, Option.bind_some,
        CacheEntry.ofBytes?_bytes_of_isStorable hresult hcreated, Option.bind_some, if_pos]
      rw [h.proper.fingerprint_eq fingerprint entry hentry, beq_self_eq_true]

/-- The list of a chunk that is read has its fingerprints. -/
theorem Holds.exists_index?_eq (h : Holds ids cache tree contents) {id : String} (hid : id ∈ ids) :
  ∃ list : List Fingerprint, list.Nodup ∧ list.toFinset = contents.listed id
    ∧ cache.files tree (indexNames id)
      = (if list = [] then none else some (ChunkIndex.bytes ⟨id, list.map (·.text)⟩))
    ∧ cache.index? tree id = if list = [] then none else some ⟨id, list.map (·.text)⟩
  := by
  obtain ⟨list, hnodup, hset, hfile⟩ := h.represents.index id hid
  use list, hnodup, hset, hfile
  rw [index?_eq h.toIsOpen, hfile]
  split
  · rfl
  · apply ChunkIndex.ofBytes?_bytes

theorem text_mem_map {fingerprint : Fingerprint} {list : List Fingerprint} :
  fingerprint.text ∈ list.map (·.text) ↔ fingerprint ∈ list
  := by
  apply List.mem_map_of_injective
  intro first second h
  cases first
  cases second
  rw [Fingerprint.mk.injEq]
  apply h

/-- Storing a result does to the maps what it should. -/
theorem Holds.of_store_eq_ok (h : Holds ids cache tree contents) (hsha : ids.InjOn Sha256.ofText)
    {key : CacheKey} (hkey : key.fingerprint.IsValid) (hid : key.indexId ∈ ids) {result : Json}
    (hresult : result.IsStorable) {now : Nat} (hnow : now < 2 ^ 64) {entry : CacheEntry}
    (hstore : cache.store key result now tree = (.ok entry, next)) :
  CacheEntry.ofKey key result now = entry
    ∧ Holds ids cache next (contents.store entry key.fingerprint)
  := by
  obtain ⟨rfl, middle, hwritten, hadd⟩ := Cache.of_store_eq_ok h.sound hstore
  have hopen := h.toIsOpen.of_keeps hwritten.toKeeps
  have hfiles := files_of_replaces_entry h.isTidy hkey hwritten
  obtain ⟨list, hnodup, hset, hfile, hindex⟩ := h.exists_index?_eq hid
  have hmiddle : cache.files middle (indexNames key.indexId)
      = cache.files tree (indexNames key.indexId) := by
    rw [hfiles, Function.update_of_ne (entryNames_ne_indexNames _ _).symm]
  have hlisted : (cache.index? middle key.indexId).getD ⟨key.indexId, []⟩
      = ⟨key.indexId, list.map (·.text)⟩ := by
    rw [index?_eq hopen, hmiddle, ← index?_eq h.toIsOpen, hindex]
    split
    · rename_i hnil
      rw [hnil]
      rfl
    · rfl
  have hindexId : parentId (CacheEntry.ofKey key result now).chunkId = key.indexId := rfl
  have hparent : parentId (CacheEntry.ofKey key result now).chunkId ∈ ids := hid
  use rfl
  rcases of_addToIndex_eq_ok hopen.sound hlisted hadd with ⟨hmem, rfl⟩ | ⟨hmem, hreplaces⟩
  · rw [text_mem_map] at hmem
    have hsame : insert key.fingerprint (contents.listed key.indexId) = contents.listed key.indexId := by
      apply Finset.insert_eq_of_mem
      rw [← hset, List.mem_toFinset]
      apply hmem
    constructor
    · apply hopen
    · apply h.represents.store hsha hkey hparent
      · rw [hfiles, Function.update_self]
      · rw [hindexId, hsame, hmiddle]
        apply h.represents.index key.indexId hid
      · intro names hnames _
        rw [hfiles, Function.update_of_ne hnames]
    · apply h.proper.store hkey hresult hnow
  · rw [text_mem_map] at hmem
    have htidy : cache.IsTidy middle := by
      intro names htemporary
      rw [hwritten.base_eq] at htemporary
      rw [hfiles, Function.update_of_ne, h.isTidy names htemporary]
      rintro rfl
      apply not_isTemporary_entryNames _ _ htemporary
    have hfiles' := files_of_replaces_index htidy hreplaces
    constructor
    · apply hopen.of_keeps hreplaces.toKeeps
    · apply h.represents.store hsha hkey hparent
      · rw [hfiles', Function.update_of_ne (entryNames_ne_indexNames _ _), hfiles,
          Function.update_self]
      · have hgrown : (list ++ [key.fingerprint]).Nodup := by
          rw [← List.concat_eq_append]
          apply hnodup.concat hmem
        rw [hindexId, hfiles', Function.update_self]
        use list ++ [key.fingerprint], hgrown
        constructor
        · rw [List.toFinset_append, hset, Finset.union_comm]
          rfl
        · rw [if_neg (by simp), List.map_append]
          rfl
      · intro names hnames hnames'
        rw [hindexId] at hnames'
        rw [hfiles', Function.update_of_ne hnames', hfiles, Function.update_of_ne hnames]
    · apply h.proper.store hkey hresult hnow

/-- A count of a list without repetitions is a count of its set. -/
theorem Contents.count_eq_countP {list : List Fingerprint} (hnodup : list.Nodup) {id : String}
    (hset : list.toFinset = contents.listed id) :
  contents.count id = list.countP fun fingerprint => (contents.entries fingerprint).isSome
  := by
  rw [count, ← hset, ← List.toFinset_filter, List.toFinset_card_of_nodup (hnodup.filter _),
    List.countP_eq_length_filter]

/-- Removing the results of a chunk does to the maps what it should. -/
theorem Holds.of_invalidate_eq_ok (h : Holds ids cache tree contents)
    (hsha : ids.InjOn Sha256.ofText) {chunkId : String} (hid : parentId chunkId ∈ ids) {removed : Nat}
    (hinvalidate : cache.invalidate chunkId tree = (.ok removed, next)) :
  removed = contents.count (parentId chunkId)
    ∧ Holds ids cache next (contents.invalidate (parentId chunkId))
  := by
  obtain ⟨list, hnodup, hset, hfile, hindex⟩ := h.exists_index?_eq hid
  have hvalid : ∀ fingerprint ∈ list, fingerprint.IsValid := by
    intro fingerprint hmem
    apply h.proper.valid (parentId chunkId)
    rw [← hset, List.mem_toFinset]
    apply hmem
  rw [Contents.count_eq_countP hnodup hset]
  obtain ⟨found, middle, hget, hinvalidate⟩ := bind_eq_ok hinvalidate
  obtain ⟨rfl, rfl⟩ := of_get_eq_ok hget
  by_cases hnil : list = []
  · subst hnil
    rw [hindex, if_pos rfl] at hinvalidate
    obtain ⟨rfl, rfl⟩ := of_pure_eq_ok hinvalidate
    constructor
    · rfl
    constructor
    · apply h.toIsOpen
    · apply h.represents.invalidate hsha hid
      · rw [← hset]
        intro fingerprint hmem
        cases Finset.notMem_empty _ hmem
      · apply hfile
      · intro names _ _
        rfl
    · apply h.proper.invalidate
  · rw [hindex, if_neg hnil] at hinvalidate
    obtain ⟨count, middle, hremove, hinvalidate⟩ := bind_eq_ok hinvalidate
    obtain ⟨gone, last, hgone, hinvalidate⟩ := bind_eq_ok hinvalidate
    obtain ⟨rfl, rfl⟩ := of_pure_eq_ok hinvalidate
    obtain ⟨hkeeps, hnone, hsame, rfl⟩ := of_removeEntries_eq_ok h.toIsOpen hvalid hnodup hremove
    have hopen := h.toIsOpen.of_keeps hkeeps
    obtain ⟨hkeeps', hfiles, -⟩ := of_removeIfThere_eq_ok hopen
      (namesOf_indexPath cache middle (parentId chunkId))
      (toOption_read_indexPath cache hopen.sound hopen.reaches (parentId chunkId)) hgone
    constructor
    · apply List.countP_congr
      intro fingerprint hmem
      rw [h.represents.entry fingerprint (hvalid fingerprint hmem), Option.isSome_map]
    constructor
    · apply hopen.of_keeps hkeeps'
    · apply h.represents.invalidate hsha hid
      · intro fingerprint hmem
        rw [← hset, List.mem_toFinset] at hmem
        rw [hfiles, Function.update_of_ne (entryNames_ne_indexNames _ _), hnone fingerprint hmem]
      · rw [hfiles, Function.update_self]
      · intro names hentries hnames
        rw [hfiles, Function.update_of_ne hnames, hsame]
        intro fingerprint hmem
        apply hentries
        rw [← hset, List.mem_toFinset]
        apply hmem
    · apply h.proper.invalidate

/-- The results of a chunk can be removed if all that are listed are there. -/
theorem Holds.exists_invalidate (h : Holds ids cache tree contents) (hfilled : contents.IsFilled)
    {chunkId : String} (hid : parentId chunkId ∈ ids) :
  ∃ removed next, cache.invalidate chunkId tree = (.ok removed, next)
  := by
  obtain ⟨list, hnodup, hset, hfile, hindex⟩ := h.exists_index?_eq hid
  rw [invalidate, get_bind, hindex]
  by_cases hnil : list = []
  · rw [if_pos hnil]
    use 0, tree
    rfl
  · rw [if_neg hnil] at hfile ⊢
    have hmem : ∀ fingerprint ∈ list, fingerprint ∈ contents.listed (parentId chunkId) := by
      intro fingerprint hmem
      rw [← hset, List.mem_toFinset]
      apply hmem
    have hvalid : ∀ fingerprint ∈ list, fingerprint.IsValid :=
      fun fingerprint hlist => h.proper.valid _ fingerprint (hmem fingerprint hlist)
    have hthere : ∀ fingerprint ∈ list, (cache.files tree (entryNames fingerprint)).isSome := by
      intro fingerprint hlist
      rw [h.represents.entry fingerprint (hvalid fingerprint hlist), Option.isSome_map]
      apply hfilled _ fingerprint (hmem fingerprint hlist)
    obtain ⟨removed, middle, hremove⟩ := exists_removeEntries h.toIsOpen hvalid hnodup hthere
    obtain ⟨hkeeps, -, hsame, -⟩ := of_removeEntries_eq_ok h.toIsOpen hvalid hnodup hremove
    have hopen := h.toIsOpen.of_keeps hkeeps
    have hthere' : (cache.files middle (indexNames (parentId chunkId))).isSome := by
      rw [hsame _ fun fingerprint _ => (entryNames_ne_indexNames _ _).symm, hfile]
      rfl
    obtain ⟨last, hgone⟩ := exists_removeIfThere
      (toOption_read_indexPath cache hopen.sound hopen.reaches (parentId chunkId)) hthere'
    use removed, last
    dsimp only
    rw [bind_of_ok _ hremove, bind_of_ok _ hgone]
    rfl

theorem isLeftover_intercalate {front : List String} (hfront : front ≠ []) {digits : String}
    (h : ∀ name ∈ front ++ [fileName digits], IsShortName name) :
  isLeftover ("/".intercalate (front ++ [fileName digits])) = false
  := by
  have hpieces : Path.pieces ("/".intercalate (front ++ [fileName digits]))
      = front ++ [fileName digits] := by
    apply Path.pieces_intercalate (by simp)
    intro name hname
    apply (h name hname).slash
  rw [isLeftover, Path.fileName?_of_pieces hfront hpieces (h _ (by simp)).toIsName, Option.getD_some,
    String.endsWith_eq_endsWith_toSlice, String.Slice.endsWith_string_eq_false_iff,
    String.copy_toSlice]
  rintro ⟨front', heq⟩
  apply fileName_ne_temporary digits (String.ofList front')
  apply String.toList_inj.mp
  rw [String.toList_append, String.toList_ofList]
  apply heq.symm

/-- No file of the cache is taken for one that was left behind. -/
theorem Holds.isLeftover_eq_false (h : Holds ids cache tree contents) {path : String}
    (hpath : path ∈ tree.listing cache.root) :
  isLeftover path = false
  := by
  obtain ⟨names, bytes, rfl, hfile⟩ := FileTree.exists_file?_of_mem_listing h.sound hpath
  rcases h.represents.only names bytes hfile with ⟨fingerprint, hvalid, rfl⟩ | ⟨id, rfl⟩
  · have hnames : entryNames fingerprint = ["entries", fingerprint.shards.1, fingerprint.shards.2]
        ++ [fileName fingerprint.text] := rfl
    rw [hnames]
    apply isLeftover_intercalate (List.cons_ne_nil _ _)
    rw [← hnames]
    intro name hname
    apply isShortName_of_mem_entryNames hvalid hname
  · have hnames : indexNames id = ["chunks", String.ofList ((Sha256.ofText id).toList.take 2)]
        ++ [fileName (Sha256.ofText id)] := rfl
    rw [hnames]
    apply isLeftover_intercalate (List.cons_ne_nil _ _)
    rw [← hnames]
    intro name hname
    apply isShortName_of_mem_indexNames hname

/-- There is nothing to clean up. -/
theorem Holds.of_close_eq_ok (h : Holds ids cache tree contents) {count : Nat}
    (hclose : cache.close tree = (.ok count, next)) :
  count = 0 ∧ tree = next
  := by
  have hnone : (tree.listing cache.root).filter isLeftover = [] := by
    apply List.filter_eq_nil_iff.mpr
    intro path hpath
    rw [h.isLeftover_eq_false hpath]
    simp
  obtain ⟨found, middle, hget, hclose⟩ := bind_eq_ok hclose
  obtain ⟨rfl, rfl⟩ := of_get_eq_ok hget
  cases hfind : tree.find cache.root with
  | error e =>
      rw [hfind] at hclose
      cases e with
      | notFound =>
          obtain ⟨rfl, rfl⟩ := of_pure_eq_ok hclose
          use rfl
      | _ => cases throw_ne_ok hclose
  | ok node =>
      rw [hfind] at hclose
      cases node with
      | file bytes => cases throw_ne_ok hclose
      | folder entries =>
          obtain ⟨found, middle, hget, hclose⟩ := bind_eq_ok hclose
          obtain ⟨rfl, rfl⟩ := of_get_eq_ok hget
          dsimp only at hclose
          rw [hnone] at hclose
          obtain ⟨_, middle, hremove, hclose⟩ := bind_eq_ok hclose
          obtain ⟨-, rfl⟩ := of_pure_eq_ok hremove
          obtain ⟨rfl, rfl⟩ := of_pure_eq_ok hclose
          use rfl

/-- Opening a cache again leaves its files as they are. -/
theorem Holds.of_openAt_eq_ok (h : Holds ids cache tree contents) {other : Cache}
    (hopen : openAt cache.root tree = (.ok other, next)) :
  Holds ids cache next contents
  := by
  obtain ⟨rfl, hopened, hgrows⟩ := Cache.of_openAt_eq_ok h.sound hopen
  have hfiles : cache.files next = cache.files tree := by
    funext names
    rw [files, hgrows.base_eq, hgrows.file?_eq, files]
  constructor
  · apply hopened
  · rw [hfiles]
    apply h.represents
  · apply h.proper

/-- An operation does to the maps what it should, and answers what it should. -/
theorem Holds.of_perform_eq_ok (h : Holds ids cache tree contents) (hsha : ids.InjOn Sha256.ofText)
    {operation : Operation} (hproper : operation.IsProper)
    (hids : ∀ id ∈ operation.listId?, id ∈ ids) {answer : Answer}
    (hperform : cache.perform operation tree = (.ok answer, next)) :
  answer = (contents.perform operation).1
    ∧ Holds ids cache next (contents.perform operation).2
  := by
  cases operation with
  | store key result now =>
      obtain ⟨entry, middle, hstore, hperform⟩ := bind_eq_ok hperform
      obtain ⟨rfl, rfl⟩ := of_pure_eq_ok hperform
      obtain ⟨rfl, hholds⟩ := h.of_store_eq_ok hsha hproper.1 (hids key.indexId rfl) hproper.2.1
        hproper.2.2 hstore
      constructor
      · rfl
      · apply hholds
  | invalidate chunkId =>
      obtain ⟨removed, middle, hinvalidate, hperform⟩ := bind_eq_ok hperform
      obtain ⟨rfl, rfl⟩ := of_pure_eq_ok hperform
      obtain ⟨rfl, hholds⟩ := h.of_invalidate_eq_ok hsha (hids (parentId chunkId) rfl) hinvalidate
      constructor
      · rfl
      · apply hholds
  | lookup fingerprint =>
      obtain ⟨found, middle, hget, hperform⟩ := bind_eq_ok hperform
      obtain ⟨rfl, rfl⟩ := of_get_eq_ok hget
      obtain ⟨rfl, rfl⟩ := of_pure_eq_ok hperform
      rw [h.lookup_eq hproper]
      constructor
      · rfl
      · apply h
  | close =>
      obtain ⟨count, middle, hclose, hperform⟩ := bind_eq_ok hperform
      obtain ⟨rfl, rfl⟩ := of_pure_eq_ok hperform
      obtain ⟨rfl, rfl⟩ := h.of_close_eq_ok hclose
      constructor
      · rfl
      · apply h
  | reopen =>
      obtain ⟨other, middle, hopen, hperform⟩ := bind_eq_ok hperform
      obtain ⟨rfl, rfl⟩ := of_pure_eq_ok hperform
      constructor
      · rfl
      · apply h.of_openAt_eq_ok hopen

/-- A fingerprint is in the map if it is in the list that is read. -/
theorem Holds.mem_listed_iff (h : Holds ids cache tree contents) {id : String} (hid : id ∈ ids)
    {fingerprint : Fingerprint} :
  fingerprint ∈ contents.listed id
    ↔ ∃ index ∈ cache.index? tree id, fingerprint.text ∈ index.fingerprints
  := by
  obtain ⟨list, -, hset, -, hindex⟩ := h.exists_index?_eq hid
  rw [← hset, List.mem_toFinset, hindex, ← text_mem_map]
  by_cases hnil : list = []
  · simp [hnil]
  · simp [hnil]

/-! ### Whole runs -/

/-- Operations one after the other do to the maps what they should, and answer what they should. -/
theorem Holds.of_performAll_eq_ok (h : Holds ids cache tree contents)
    (hsha : ids.InjOn Sha256.ofText) {operations : List Operation}
    (hproper : ∀ operation ∈ operations, operation.IsProper)
    (hids : ∀ operation ∈ operations, ∀ id ∈ operation.listId?, id ∈ ids) {answers : List Answer}
    (hperform : cache.performAll operations tree = (.ok answers, next)) :
  answers = (contents.performAll operations).1
    ∧ Holds ids cache next (contents.performAll operations).2
  := by
  induction operations generalizing tree contents answers with
  | nil =>
      obtain ⟨rfl, rfl⟩ := of_pure_eq_ok hperform
      constructor
      · rfl
      · apply h
  | cons operation rest ih =>
      obtain ⟨answer, middle, hfirst, hperform⟩ := bind_eq_ok hperform
      obtain ⟨later, last, hrest, hperform⟩ := bind_eq_ok hperform
      obtain ⟨rfl, rfl⟩ := of_pure_eq_ok hperform
      obtain ⟨rfl, hmiddle⟩ := h.of_perform_eq_ok hsha (hproper operation List.mem_cons_self)
        (hids operation List.mem_cons_self) hfirst
      obtain ⟨rfl, hlast⟩ := ih hmiddle
        (fun other hother => hproper other (List.mem_cons_of_mem _ hother))
        (fun other hother => hids other (List.mem_cons_of_mem _ hother)) hrest
      constructor
      · rfl
      · apply hlast

theorem performAll_cons {operation : Operation} {rest : List Operation} {middle : FileTree}
    {answer : Answer} {answers : List Answer}
    (hfirst : cache.perform operation tree = (.ok answer, middle))
    (hrest : cache.performAll rest middle = (.ok answers, next)) :
  cache.performAll (operation :: rest) tree = (.ok (answer :: answers), next)
  := by
  rw [performAll, bind_of_ok _ hfirst, bind_of_ok _ hrest]
  rfl

/-- A cache that was opened where there were no files is empty. -/
theorem holds_of_openAt_eq_ok (hsound : tree.Sound) {root : String}
    (hempty : ∀ names, tree.file? (tree.base root ++ names) = none)
    (hopen : openAt root tree = (.ok cache, next)) :
  Holds ids cache next .empty
  := by
  obtain ⟨rfl, hopened, hgrows⟩ := Cache.of_openAt_eq_ok hsound hopen
  constructor
  · apply hopened
  · apply represents_empty
    intro names
    rw [files, hgrows.base_eq, hgrows.file?_eq, hempty]
  · apply Contents.isProper_empty

/-- The chunks whose lists some operations read. -/
def listIds (operations : List Operation) : Set String :=
  { id | ∃ operation ∈ operations, operation.listId? = some id }

/-- A cache that nothing else touches behaves as two maps: if all of some operations succeed, on a
new cache, in any order and with any keys and chunks, then they answer what they answer on the maps.
Afterwards each look-up finds what the map has, each list has the fingerprints that the map has, and
each result is listed under the chunk it was kept for.  If the last operation removed the results
of a chunk, then none that was kept for it is found, and none for a part of it unless the chunk is
such a part itself. -/
theorem performAll_refines {root : String} {opened : FileTree} {operations : List Operation}
    {answers : List Answer} (hsound : tree.Sound)
    (hempty : ∀ names, tree.file? (tree.base root ++ names) = none)
    (hopen : openAt root tree = (.ok cache, opened))
    (hproper : ∀ operation ∈ operations, operation.IsProper)
    (hsha : (listIds operations).InjOn Sha256.ofText)
    (hrun : cache.performAll operations opened = (.ok answers, next)) :
  answers = (Contents.empty.performAll operations).1
    ∧ (∀ fingerprint, fingerprint.IsValid → cache.lookup next fingerprint
      = (Contents.empty.performAll operations).2.entries fingerprint)
    ∧ (∀ id ∈ listIds operations, ∀ fingerprint,
      fingerprint ∈ (Contents.empty.performAll operations).2.listed id
        ↔ ∃ index ∈ cache.index? next id, fingerprint.text ∈ index.fingerprints)
    ∧ (∀ fingerprint, fingerprint.IsValid → ∀ entry ∈ cache.lookup next fingerprint,
      ∃ index ∈ cache.index? next (parentId entry.chunkId), fingerprint.text ∈ index.fingerprints)
    ∧ ∀ chunkId, operations.getLast? = some (.invalidate chunkId) →
      ∀ fingerprint, fingerprint.IsValid → ∀ entry ∈ cache.lookup next fingerprint,
        entry.chunkId ≠ chunkId
          ∧ (parentId chunkId = chunkId → ∀ n : Nat, entry.chunkId ≠ chunkId ++ "#" ++ toString n)
  := by
  obtain ⟨rfl, hholds⟩ := (holds_of_openAt_eq_ok hsound hempty hopen).of_performAll_eq_ok hsha hproper
    (fun operation hmem id hid => ⟨operation, hmem, hid⟩) hrun
  have hlist : ∀ id ∈ listIds operations, ∀ fingerprint,
      fingerprint ∈ (Contents.empty.performAll operations).2.listed id
        ↔ ∃ index ∈ cache.index? next id, fingerprint.text ∈ index.fingerprints := by
    intro id hid fingerprint
    apply hholds.mem_listed_iff hid
  constructor
  · rfl
  constructor
  · intro fingerprint hvalid
    apply hholds.lookup_eq hvalid
  constructor
  · apply hlist
  constructor
  · intro fingerprint hvalid entry hentry
    rw [hholds.lookup_eq hvalid] at hentry
    have hlisted := hholds.proper.listed fingerprint entry hentry
    apply (hlist _ (hholds.represents.listed _ _ hlisted) fingerprint).mp hlisted
  · intro chunkId hlast fingerprint hvalid entry hentry
    rw [hholds.lookup_eq hvalid] at hentry
    obtain ⟨front, rfl⟩ := List.getLast?_eq_some_iff.mp hlast
    rw [Contents.performAll_concat] at hentry
    have hfront : (Contents.empty.performAll front).2.IsProper := by
      apply Contents.isProper_empty.performAll
      intro operation hmem
      apply hproper operation (List.mem_append_left _ hmem)
    have hne := hfront.parentId_ne hentry
    constructor
    · rintro rfl
      apply hne rfl
    · intro hparent n hpart
      apply hne
      rw [hpart, parentId_part, hparent]

/-! ### Parts of parts -/

/-- A key for a part of a part. -/
def partKey : CacheKey where
  fingerprint := ⟨"0123456789abcdef0123456789abcdef0123456789abcdef0123456789abcdef"⟩
  chunkId := "a.py:f#1#2"
  reviewer := "security"
  model := "m"

/-- A result is stored for a part of a part, then those of the part are removed, and then those of
the part of the part. -/
def partOperations : List Operation :=
  [.store partKey .null 0, .invalidate "a.py:f#1", .lookup partKey.fingerprint,
    .invalidate "a.py:f#1#2"]

theorem isProper_partOperations :
  ∀ operation ∈ partOperations, operation.IsProper
  := by
  have hdigits : Fingerprint.ofText? partKey.fingerprint.text = some partKey.fingerprint := by
    decide +kernel
  have hvalid := (Fingerprint.of_ofText?_eq_some hdigits).2
  have hnull : Json.null.IsStorable := by
    constructor
    · decide
    · intro n hn
      cases hn
    · rfl
  intro operation hmem
  simp only [partOperations, List.mem_cons, List.not_mem_nil, or_false] at hmem
  rcases hmem with rfl | rfl | rfl | rfl
  · use hvalid, hnull
    decide
  · trivial
  · apply hvalid
  · trivial

theorem injOn_partOperations :
  (listIds partOperations).InjOn Sha256.ofText
  := by
  have hids : listIds partOperations ⊆ {"a.py:f#1", "a.py:f"} := by
    rintro id ⟨operation, hmem, hid⟩
    simp only [partOperations, List.mem_cons, List.not_mem_nil, or_false] at hmem
    rcases hmem with rfl | rfl | rfl | rfl
    · left
      rw [← Option.some.inj hid]
      decide +kernel
    · right
      rw [Set.mem_singleton_iff, ← Option.some.inj hid]
      decide +kernel
    · cases hid
    · left
      rw [← Option.some.inj hid]
      decide +kernel
  have hne : Sha256.ofText "a.py:f#1" ≠ Sha256.ofText "a.py:f" := by decide +kernel
  intro first hfirst second hsecond heq
  rcases hids hfirst with rfl | rfl <;> rcases hids hsecond with rfl | rfl
  · rfl
  · cases hne heq
  · cases hne heq.symm
  · rfl

theorem file?_empty (names : List String) :
  FileTree.empty.file? (FileTree.empty.base "cache" ++ names) = none
  := by
  have hbase : FileTree.empty.base "cache" = ["cache"] := by decide +kernel
  rw [hbase]
  rfl

/-- The maps after the first two operations still have the result. -/
theorem entries_partOperations :
  ((Contents.empty.perform (.store partKey .null 0)).2.perform (.invalidate "a.py:f#1")).2.entries
      partKey.fingerprint
    = some (CacheEntry.ofKey partKey .null 0)
  := by
  have hpart : parentId (CacheEntry.ofKey partKey .null 0).chunkId = "a.py:f#1" := by decide +kernel
  have hparent : parentId "a.py:f#1" = "a.py:f" := by decide +kernel
  have hne : "a.py:f" ≠ parentId (CacheEntry.ofKey partKey .null 0).chunkId := by
    rw [hpart]
    decide +kernel
  rw [Contents.perform, Contents.perform]
  dsimp only
  rw [hparent, Contents.entries_invalidate_of_notMem, Contents.entries_store_self]
  rw [Contents.listed_store_ne _ _ hne]
  apply Finset.notMem_empty

/-- The operations succeed on a new cache. -/
theorem exists_partOperations :
  ∃ opened answers next, openAt "cache" .empty = (.ok ⟨"cache"⟩, opened)
    ∧ performAll ⟨"cache"⟩ partOperations opened = (.ok answers, next)
  := by
  have hstoreMem : .store partKey .null 0 ∈ partOperations := by simp [partOperations]
  have hpartMem : .invalidate "a.py:f#1" ∈ partOperations := by simp [partOperations]
  have hinnerMem : .invalidate "a.py:f#1#2" ∈ partOperations := by simp [partOperations]
  obtain ⟨hkey, hnull, hnow⟩ := isProper_partOperations _ hstoreMem
  obtain ⟨opened, hopen, hnew⟩ := exists_isNew
  have hempty : Holds (listIds partOperations) ⟨"cache"⟩ opened .empty :=
    holds_of_openAt_eq_ok FileTree.sound_empty file?_empty hopen
  -- The result is stored.
  obtain ⟨stored, hstore⟩ :=
    exists_store hnew.hasFolder hkey (hnew.canKeep _) (hnew.canList _) .null 0
  obtain ⟨-, hstored⟩ :=
    hempty.of_store_eq_ok injOn_partOperations hkey ⟨_, hstoreMem, rfl⟩ hnull hnow hstore
  have hfilled := Contents.isFilled_empty.store (.ofKey partKey .null 0) partKey.fingerprint
  -- Nothing is removed for the part, and then the result for the part of the part.
  obtain ⟨spared, kept, hspare⟩ := hstored.exists_invalidate hfilled ⟨_, hpartMem, rfl⟩
  obtain ⟨-, hkept⟩ := hstored.of_invalidate_eq_ok injOn_partOperations ⟨_, hpartMem, rfl⟩ hspare
  have hunlisted : (Contents.empty.store (.ofKey partKey .null 0) partKey.fingerprint).listed
      (parentId "a.py:f#1") = ∅ := by
    have hne : parentId "a.py:f#1" ≠ parentId (CacheEntry.ofKey partKey .null 0).chunkId := by
      decide +kernel
    rw [Contents.listed_store_ne _ _ hne]
    rfl
  obtain ⟨removed, last, hremove⟩ :=
    hkept.exists_invalidate (hfilled.invalidate hunlisted) ⟨_, hinnerMem, rfl⟩
  use opened, [.entry (some (.ofKey partKey .null 0)), .count spared,
    .entry (lookup ⟨"cache"⟩ kept partKey.fingerprint), .count removed], last, hopen
  apply performAll_cons (bind_of_ok _ hstore)
  apply performAll_cons (bind_of_ok _ hspare)
  apply performAll_cons rfl
  apply performAll_cons (bind_of_ok _ hremove) rfl

theorem performAll_refines_partOperations :
  ∃ opened answers next, openAt "cache" .empty = (.ok ⟨"cache"⟩, opened)
    ∧ performAll ⟨"cache"⟩ partOperations opened = (.ok answers, next)
    ∧ answers = (Contents.empty.performAll partOperations).1
    ∧ ∀ fingerprint, fingerprint.IsValid → ∀ entry ∈ lookup ⟨"cache"⟩ next fingerprint,
      entry.chunkId ≠ "a.py:f#1#2"
  := by
  obtain ⟨opened, answers, next, hopen, hrun⟩ := exists_partOperations
  have h := performAll_refines FileTree.sound_empty file?_empty hopen isProper_partOperations
    injOn_partOperations hrun
  use opened, answers, next, hopen, hrun, h.1
  intro fingerprint hvalid entry hentry
  apply (h.2.2.2.2 "a.py:f#1#2" rfl fingerprint hvalid entry hentry).1

/-- What is stored for a part of a part is still found after the results of the part were removed:
those that are removed are those of the chunk that the part is of. -/
theorem part_found_after_invalidate :
  partKey.chunkId = "a.py:f#1" ++ "#" ++ toString 2
    ∧ partOperations[1]? = some (.invalidate "a.py:f#1")
    ∧ partOperations[2]? = some (.lookup partKey.fingerprint)
    ∧ ∃ opened answers next, openAt "cache" .empty = (.ok ⟨"cache"⟩, opened)
      ∧ performAll ⟨"cache"⟩ partOperations opened = (.ok answers, next)
      ∧ answers[2]? = some (.entry (some (CacheEntry.ofKey partKey .null 0)))
  := by
  obtain ⟨opened, answers, next, hopen, hrun⟩ := exists_partOperations
  have hholds : Holds (listIds partOperations) ⟨"cache"⟩ opened .empty :=
    holds_of_openAt_eq_ok FileTree.sound_empty file?_empty hopen
  obtain ⟨rfl, -⟩ := hholds.of_performAll_eq_ok injOn_partOperations isProper_partOperations
    (fun operation hmem id hid => ⟨operation, hmem, hid⟩) hrun
  constructor
  · decide +kernel
  constructor
  · rfl
  constructor
  · rfl
  use opened, (Contents.empty.performAll partOperations).1, next, hopen, hrun
  rw [← entries_partOperations]
  rfl

end Scrutiny.Cache
