import Scrutiny.Proofs.AbsolutePath
import Scrutiny.Scan.Sources

/-!
# Where source files are found

A source file of a project is found below its folder, under names that its path tells.
-/

namespace Scrutiny

/-! ### Names in a tree -/

namespace FileNode

/-- All names below a node are names of files. -/
inductive Named : FileNode → Prop where
  | file (bytes : List UInt8) : Named (.file bytes)
  | folder {entries : List (String × FileNode)} (hnames : ∀ entry ∈ entries, Path.IsName entry.1)
    (hentries : ∀ entry ∈ entries, Named entry.2) : Named (.folder entries)

/-- What is found in a tree is found under names, and it has names below it. -/
theorem Named.of_at?_eq_some {node found : FileNode} (h : node.Named) {names : List String}
    (hat : node.at? names = some found) :
  (∀ name ∈ names, Path.IsName name) ∧ found.Named
  := by
  induction names generalizing node with
  | nil =>
      rw [at?_nil] at hat
      rw [← Option.some.inj hat]
      exact ⟨fun name hname => absurd hname (List.not_mem_nil), h⟩
  | cons first rest ih =>
      cases h with
      | file bytes => cases hat
      | folder hnames hentries =>
          rw [at?] at hat
          obtain ⟨child, hchild, hat⟩ := Option.bind_eq_some_iff.mp hat
          obtain ⟨entry, hentry, rfl⟩ := Option.map_eq_some_iff.mp hchild
          have hmem := List.mem_of_find?_eq_some hentry
          have hfirst : entry.1 = first := by simpa using List.find?_some hentry
          obtain ⟨hrest, hfound⟩ := ih (hentries entry hmem) hat
          refine ⟨List.forall_mem_cons.mpr ⟨?_, hrest⟩, hfound⟩
          rw [← hfirst]
          apply hnames entry hmem

end FileNode

namespace Sources

open Scrutiny.Path

variable {tree : FileTree} {names file : List String} {size : Nat}

/-- What is found below a folder is found below one of its entries. -/
theorem exists_of_mem_walkAll {layers : List Layer} {entries : List (String × FileNode)}
    (h : (file, size) ∈ walkAll layers names entries) :
  ∃ entry ∈ entries, (file, size) ∈ walk layers (names ++ [entry.1]) entry.2
  := by
  induction entries with
  | nil => cases h
  | cons first rest ih =>
      obtain ⟨name, node⟩ := first
      rw [walkAll.eq_def] at h
      dsimp only at h
      rw [List.mem_append] at h
      rcases h with h | h
      · split_ifs at h
        · cases h
        · exact ⟨(name, node), List.mem_cons_self, h⟩
      · obtain ⟨entry, hentry, hwalk⟩ := ih h
        exact ⟨entry, List.mem_cons_of_mem _ hentry, hwalk⟩

/-- What is found below a node stands under names that start with those of the node. -/
theorem exists_of_mem_walk {node : FileNode} (hnode : node.Named) {layers : List Layer}
    (h : (file, size) ∈ walk layers names node) :
  ∃ rest, file = names ++ rest ∧ ∀ name ∈ rest, IsName name
  := by
  induction hnode generalizing names layers with
  | file bytes =>
      rw [walk, List.mem_singleton] at h
      obtain ⟨rfl, -⟩ := Prod.mk.inj h
      exact ⟨[], (List.append_nil _).symm, fun name hname => absurd hname List.not_mem_nil⟩
  | folder hnames hentries ih =>
      rw [walk] at h
      obtain ⟨entry, hentry, hwalk⟩ := exists_of_mem_walkAll h
      obtain ⟨rest, rfl, hrest⟩ := ih entry hentry hwalk
      refine ⟨entry.1 :: rest, by simp, List.forall_mem_cons.mpr ⟨hnames entry hentry, hrest⟩⟩

/-- A source file that is found below a folder is one of those of the project, if the ignore list of the
project lets it pass. -/
theorem mem_scan {root : String} (hresolve : tree.resolve root = .ok names) {node : FileNode}
    (hat : tree.at? names = some node) {rest : List String} (hrest : rest ≠ [])
    (hwalk : (names ++ rest, size) ∈ walk (layersAbove tree names) names node)
    (hsource : isSource (names ++ rest)) (hsize : size ≤ maxBytes)
    (hpasses : (ignoreList tree root).ignores
      (relativeTo (join root ("/".intercalate rest)) root) = false) :
  join root ("/".intercalate rest) ∈ scan tree root
  := by
  rw [scan, hresolve]
  dsimp only
  rw [hat]
  dsimp only
  apply List.mem_filter.mpr
  constructor
  · apply List.mem_map.mpr
    use rest
    constructor
    · apply List.mem_mergeSort.mpr
      apply List.mem_map.mpr
      use (names ++ rest, size)
      constructor
      · apply List.mem_filter.mpr
        simp [hwalk, hsource, hsize]
      · simp
    · rw [List.isEmpty_eq_false_iff.mpr hrest, if_neg Bool.false_ne_true]
  · rw [hpasses]
    rfl

end Sources

end Scrutiny
