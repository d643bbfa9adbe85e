import Scrutiny.Proofs.Cache.Entry
import Scrutiny.Proofs.Files.Spared
import Scrutiny.Proofs.InOrder
import Scrutiny.Proofs.Json.Depth
import Scrutiny.Rationale.Store

/-!
# Rationale stores in files

The entries of a store stand in the order of their ids, each id once.  A store that is saved is read as
it was.
-/

namespace Scrutiny

open Json

theorem RationaleEntry.ofJson?_toJson (entry : RationaleEntry) :
  ofJson? entry.toJson = some entry
  := by
  simp [toJson, ofJson?, parts?, string?]

theorem RationaleEntry.numbers_toJson (entry : RationaleEntry) :
  entry.toJson.numbers = []
  := by
  simp [toJson, numbers, numbersOfFields]

theorem RationaleEntry.depth_toJson (entry : RationaleEntry) :
  entry.toJson.depth = 1
  := by
  simp [toJson, depth, depthFields]

namespace RationaleStore

variable {store : RationaleStore} {entries : List (String × RationaleEntry)} {id : String}
  {entry : RationaleEntry} {tree next : FileTree} {path name : String}

/-! ### Entries in order -/

/-- The entries stand in the order of their ids, each id once. -/
def IsOrdered (store : RationaleStore) : Prop :=
  store.entries.Pairwise fun a b => a.1 < b.1

theorem mem_put {other : String × RationaleEntry} (h : other ∈ put id entry entries) :
  other = (id, entry) ∨ other ∈ entries
  := by
  induction entries with
  | nil => exact .inl (List.mem_singleton.mp h)
  | cons first rest ih =>
      obtain ⟨key, value⟩ := first
      rw [put] at h
      split_ifs at h with hkey hless
      · rcases List.mem_cons.mp h with rfl | h
        · exact .inl (by rw [eq_of_beq hkey])
        · exact .inr (List.mem_cons_of_mem _ h)
      · apply List.mem_cons.mp h
      · rcases List.mem_cons.mp h with rfl | h
        · exact .inr List.mem_cons_self
        · exact (ih h).imp_right (List.mem_cons_of_mem _)

theorem pairwise_put (h : entries.Pairwise fun a b => a.1 < b.1) :
  (put id entry entries).Pairwise fun a b => a.1 < b.1
  := by
  induction entries with
  | nil => apply List.pairwise_singleton
  | cons first rest ih =>
      obtain ⟨key, value⟩ := first
      obtain ⟨hfirst, hrest⟩ := List.pairwise_cons.mp h
      rw [put]
      split_ifs with hkey hless
      · exact List.pairwise_cons.mpr ⟨hfirst, hrest⟩
      · refine List.pairwise_cons.mpr ⟨List.forall_mem_cons.mpr ⟨hless, fun other hother => ?_⟩, h⟩
        apply lt_trans hless (hfirst other hother)
      · refine List.pairwise_cons.mpr ⟨fun other hother => ?_, ih hrest⟩
        rcases mem_put hother with rfl | hother
        · apply lt_of_le_of_ne (not_lt.mp hless)
          rintro rfl
          apply hkey (beq_self_eq_true _)
        · apply hfirst other hother

theorem IsOrdered.insert (h : store.IsOrdered) (entry : RationaleEntry) :
  (store.insert entry).IsOrdered
  := pairwise_put h

theorem contains_insert (store : RationaleStore) (entry : RationaleEntry) (id : String) :
  (store.insert entry).contains id = (entry.chunkId == id || store.contains id)
  := by
  obtain ⟨entries⟩ := store
  rw [insert, contains, contains]
  induction entries with
  | nil => simp [put]
  | cons first rest ih =>
      obtain ⟨key, value⟩ := first
      rw [put]
      split_ifs with hkey hless
      · simp [eq_of_beq hkey]
      · simp
      · simp only [List.any_cons] at ih ⊢
        rw [ih]
        simp [Bool.or_left_comm]

theorem IsOrdered.foldl_insert (h : store.IsOrdered) (entries : List RationaleEntry) :
  (entries.foldl RationaleStore.insert store).IsOrdered
  := by
  induction entries generalizing store with
  | nil => apply h
  | cons first rest ih => apply ih (h.insert first)

theorem contains_foldl_insert (store : RationaleStore) (entries : List RationaleEntry) (id : String) :
  (entries.foldl insert store).contains id = (entries.any (·.chunkId == id) || store.contains id)
  := by
  induction entries generalizing store with
  | nil => rfl
  | cons first rest ih =>
      rw [List.foldl_cons, ih, contains_insert, List.any_cons]
      ac_rfl

theorem put_of_forall_lt (h : ∀ other ∈ entries, other.1 < id) :
  put id entry entries = entries ++ [(id, entry)]
  := by
  induction entries with
  | nil => rfl
  | cons first rest ih =>
      obtain ⟨key, value⟩ := first
      obtain ⟨hfirst, hrest⟩ := List.forall_mem_cons.mp h
      rw [put, if_neg, if_neg (not_lt.mpr hfirst.le), ih hrest, List.cons_append]
      rw [beq_iff_eq]
      apply hfirst.ne'

/-- Entries that come in order are put behind one another. -/
theorem foldl_put_of_pairwise {front : List (String × RationaleEntry)}
    (h : (front ++ entries).Pairwise fun a b => a.1 < b.1) :
  entries.foldl (fun sorted entry => put entry.1 entry.2 sorted) front = front ++ entries
  := by
  induction entries generalizing front with
  | nil => rw [List.foldl_nil, List.append_nil]
  | cons first rest ih =>
      have hsplit : front ++ first :: rest = (front ++ [first]) ++ rest := by simp
      obtain ⟨-, -, hbefore⟩ := List.pairwise_append.mp h
      have hfirst : put first.1 first.2 front = front ++ [first] :=
        put_of_forall_lt fun other hother => hbefore other hother first List.mem_cons_self
      rw [hsplit] at h
      rw [List.foldl_cons, hfirst, hsplit]
      apply ih h

/-! ### Stores in files -/

theorem isOrdered_empty :
  empty.IsOrdered
  := List.Pairwise.nil

theorem isOrdered_of_ofJson? {json : Json} (h : ofJson? json = some store) :
  store.IsOrdered
  := by
  rw [ofJson?] at h
  obtain ⟨fields, -, h⟩ := Option.bind_eq_some_iff.mp h
  obtain ⟨entries, -, h⟩ := Option.bind_eq_some_iff.mp h
  rw [← Option.some.inj h]
  apply List.foldlRecOn entries _ List.Pairwise.nil
  intro sorted hsorted other _
  apply pairwise_put hsorted

theorem ofJson?_toJson (h : store.IsOrdered) :
  ofJson? store.toJson = some store
  := by
  have hentries : (store.entries.map fun entry => (entry.1, entry.2.toJson)).mapM
      (fun field => (RationaleEntry.ofJson? field.2).map fun entry => (field.1, entry))
        = some store.entries := by
    apply mapM_eq_some_iff.mpr
    apply List.forall₂_map_left_iff.mpr
    apply List.forall₂_same.mpr
    intro entry _
    rw [RationaleEntry.ofJson?_toJson]
    rfl
  have hput : store.entries.foldl (fun sorted entry => put entry.1 entry.2 sorted) [] = store.entries :=
    foldl_put_of_pairwise h
  simp only [ofJson?, toJson, object?, Option.bind_eq_bind, Option.bind_some, hentries, hput]
  rfl

/-- The store in some bytes. -/
def ofBytes (bytes : List UInt8) : RationaleStore :=
  ((Json.ofBytes? bytes).bind ofJson?).getD empty

theorem isOrdered_ofBytes (bytes : List UInt8) :
  (ofBytes bytes).IsOrdered
  := by
  rw [ofBytes]
  cases hstore : (Json.ofBytes? bytes).bind ofJson? with
  | none => apply isOrdered_empty
  | some store =>
      obtain ⟨json, -, hjson⟩ := Option.bind_eq_some_iff.mp hstore
      apply isOrdered_of_ofJson? hjson

/-- A store is read as it was written. -/
theorem ofBytes_pretty (h : store.IsOrdered) :
  ofBytes (Text.bytesOf store.toJson.pretty) = store
  := by
  have hnumbers : ∀ n ∈ store.toJson.numbers, ReadsAs n (.number n) := by
    intro n hn
    obtain ⟨field, hfield, hn⟩ := exists_of_mem_numbers_object hn
    obtain ⟨entry, -, rfl⟩ := List.mem_map.mp hfield
    rw [RationaleEntry.numbers_toJson] at hn
    cases hn
  have hdepth : store.toJson.depth ≤ 2 := by
    apply depth_object_le
    intro field hfield
    obtain ⟨entry, -, rfl⟩ := List.mem_map.mp hfield
    rw [RationaleEntry.depth_toJson]
  have hself : store.toJson.mapNumbers .number = store.toJson := mapNumbers_eq_self fun _ _ => rfl
  rw [ofBytes, Json.ofBytes?_pretty hnumbers (Nat.lt_of_le_of_lt hdepth (by decide)), hself,
    Option.bind_some, ofJson?_toJson h, Option.getD_some]

/-- The store on disk: the one in the bytes of the file that a path leads to, and one without entries if
there is no such file. -/
def onDisk (tree : FileTree) (path : String) : RationaleStore :=
  ((tree.file? (tree.namesOf path)).map ofBytes).getD empty

theorem isOrdered_onDisk (tree : FileTree) (path : String) :
  (onDisk tree path).IsOrdered
  := by
  rw [onDisk]
  cases tree.file? (tree.namesOf path) with
  | none => apply isOrdered_empty
  | some bytes => apply isOrdered_ofBytes

/-- The store on disk is the one that is loaded if its path can be followed. -/
theorem load_eq_onDisk (hsound : tree.Sound) {names : List String}
    (hresolve : tree.resolve path = .ok names) :
  load tree path = onDisk tree path
  := by
  obtain ⟨rfl, -⟩ := FileTree.of_resolve_eq_ok hsound hresolve
  rw [load, onDisk, FileTree.read, FileTree.find, hresolve, FileTree.file?]
  dsimp only
  rcases tree.at? (tree.namesOf path) with - | bytes | entries <;> rfl

/-- The store on disk is the same as long as its file is left alone. -/
theorem onDisk_of_spares {spared : Set (List String)} (hspares : FileTree.Spares spared tree next)
    (hpath : tree.namesOf path ∈ spared) :
  onDisk next path = onDisk tree path
  := by
  rw [onDisk, onDisk, hspares.namesOf_eq, hspares.file?_eq _ hpath]

/-- A store that was saved is on disk. -/
theorem onDisk_of_save (h : store.IsOrdered) (hsound : tree.Sound) (hname : Path.fileName? path = some name)
    (hsave : store.save path tree = (.ok (), next)) :
  onDisk next path = store
  := by
  obtain ⟨hold, hread⟩ := FileAction.oldOrNew_of_writeAtomic hsound hname hsave
  obtain ⟨names, hresolve, hbytes⟩ := FileTree.read_eq_ok_iff.mp (hread rfl)
  obtain ⟨rfl, -⟩ := FileTree.of_resolve_eq_ok hold.sound hresolve
  rw [onDisk, hbytes, Option.map_some, Option.getD_some, ofBytes_pretty h]

end RationaleStore

end Scrutiny
