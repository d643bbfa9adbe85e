import Scrutiny.Proofs.Scan.Sources
import Mathlib.Data.List.Nodup

/-!
# What a walk finds

A walk below a folder finds each file once that is not passed over and that lies in no folder that is
passed over.  So the source files of a project are different files, and seen from the project they have
different paths.
-/

namespace Scrutiny

/-- Whether a node is a folder. -/
def FileNode.isFolder : FileNode → Bool
  | .folder _ => true
  | .file _ => false

namespace Sources

open Scrutiny.Path

variable {tree : FileTree} {layers : List Layer} {names file rest : List String} {size : Nat}

/-- A file with some number of bytes lies below a node under some names, and nothing on the way to it is
passed over. -/
inductive Visits : List Layer → List String → FileNode → List String → Nat → Prop where
  /-- The node is the file. -/
  | file {layers : List Layer} {names : List String} {bytes : List UInt8} :
    Visits layers names (.file bytes) [] bytes.length
  /-- The file lies below an entry of the folder. -/
  | folder {layers : List Layer} {names : List String} {entries : List (String × FileNode)}
    {name : String} {node : FileNode} {rest : List String} {size : Nat}
    (hchild : FileNode.child? name entries = some node)
    (hpasses : isPassedOver (layerOf names (.folder entries) :: layers) (names ++ [name]) name
      node.isFolder = false)
    (hrest : Visits (layerOf names (.folder entries) :: layers) (names ++ [name]) node rest size) :
    Visits layers names (.folder entries) (name :: rest) size

theorem walkAll_cons (layers : List Layer) (names : List String) (name : String) (node : FileNode)
    (entries : List (String × FileNode)) :
  walkAll layers names ((name, node) :: entries)
    = (if isPassedOver layers (names ++ [name]) name node.isFolder then []
        else walk layers (names ++ [name]) node) ++ walkAll layers names entries
  := by
  rw [walkAll.eq_def]
  cases node <;> rfl

theorem mem_walkAll_iff {entries : List (String × FileNode)} :
  (file, size) ∈ walkAll layers names entries
    ↔ ∃ entry ∈ entries, isPassedOver layers (names ++ [entry.1]) entry.1 entry.2.isFolder = false
      ∧ (file, size) ∈ walk layers (names ++ [entry.1]) entry.2
  := by
  induction entries with
  | nil => simp [walkAll]
  | cons entry entries ih =>
      obtain ⟨name, node⟩ := entry
      rw [walkAll_cons, List.mem_append, ih]
      cases hpasses : isPassedOver layers (names ++ [name]) name node.isFolder <;> simp [hpasses]

/-- A walk below a node finds the files that are visited. -/
theorem mem_walk_iff {node : FileNode} (hnode : node.Ordered) :
  (file, size) ∈ walk layers names node ↔ ∃ rest, file = names ++ rest ∧ Visits layers names node rest size
  := by
  induction hnode generalizing layers names with
  | file bytes =>
      rw [walk, List.mem_singleton, Prod.mk.injEq]
      constructor
      · rintro ⟨rfl, rfl⟩
        exact ⟨[], (List.append_nil _).symm, .file⟩
      · rintro ⟨rest, rfl, hvisits⟩
        cases hvisits
        exact ⟨List.append_nil _, rfl⟩
  | folder hsorted hentries ih =>
      rw [walk, mem_walkAll_iff]
      constructor
      · rintro ⟨entry, hentry, hpasses, hwalk⟩
        obtain ⟨rest, rfl, hrest⟩ := (ih entry hentry).mp hwalk
        exact ⟨entry.1 :: rest, by simp, .folder (FileNode.child?_of_mem hsorted hentry) hpasses hrest⟩
      · rintro ⟨rest, rfl, hvisits⟩
        cases hvisits with
        | @folder _ _ _ name node rest _ hchild hpasses hrest =>
            obtain ⟨entry, hfind, rfl⟩ := Option.map_eq_some_iff.mp hchild
            have hentry := List.mem_of_find?_eq_some hfind
            obtain rfl : entry.1 = name := by simpa using List.find?_some hfind
            refine ⟨entry, hentry, hpasses, (ih entry hentry).mpr ⟨rest, by simp, hrest⟩⟩

theorem exists_of_mem_map_walkAll {entries : List (String × FileNode)}
    (hentries : ∀ entry ∈ entries, entry.2.Ordered) (h : file ∈ (walkAll layers names entries).map (·.1)) :
  ∃ entry ∈ entries, ∃ rest, file = names ++ entry.1 :: rest
  := by
  obtain ⟨⟨file, size⟩, hfile, rfl⟩ := List.mem_map.mp h
  obtain ⟨entry, hentry, -, hwalk⟩ := mem_walkAll_iff.mp hfile
  obtain ⟨rest, rfl, -⟩ := (mem_walk_iff (hentries entry hentry)).mp hwalk
  exact ⟨entry, hentry, rest, by simp⟩

/-- A walk finds no file twice. -/
theorem nodup_walk {node : FileNode} (hnode : node.Ordered) :
  ((walk layers names node).map (·.1)).Nodup
  := by
  induction hnode generalizing layers names with
  | file bytes => rw [walk]; apply List.nodup_singleton
  | @folder entries hsorted hentries ih =>
      rw [walk]
      generalize layerOf names (.folder entries) :: layers = inner
      -- What is found below different entries differs by their names.
      induction entries with
      | nil => apply List.nodup_nil
      | cons entry entries ihentries =>
          obtain ⟨name, node⟩ := entry
          obtain ⟨hfirst, hsorted⟩ := List.pairwise_cons.mp hsorted
          obtain ⟨hnode, hrest⟩ := List.forall_mem_cons.mp hentries
          rw [walkAll_cons, List.map_append]
          apply List.Nodup.append
          · split_ifs
            · apply List.nodup_nil
            · apply ih (name, node) List.mem_cons_self
          · apply ihentries hsorted hrest
            intro other hother layers names
            apply ih other (List.mem_cons_of_mem _ hother)
          · intro file hbelow hlater
            split_ifs at hbelow
            · cases hbelow
            · obtain ⟨⟨found, size⟩, hfound, rfl⟩ := List.mem_map.mp hbelow
              obtain ⟨rest, hfile, -⟩ := (mem_walk_iff hnode).mp hfound
              obtain ⟨other, hother, rest', heq⟩ := exists_of_mem_map_walkAll hrest hlater
              rw [hfile, List.append_assoc, List.append_cancel_left_eq] at heq
              obtain rfl : name = other.1 := (List.cons.inj heq).1
              exact lt_irrefl _ (hfirst other hother)

/-! ### The files of a project -/

/-- The source files below a node, each by the names that lead to it from there. -/
def found (tree : FileTree) (names : List String) (node : FileNode) : List (List String) :=
  ((walk (layersAbove tree names) names node).filter fun file =>
    isSource file.1 && file.2 ≤ maxBytes).map fun file => file.1.drop names.length

theorem mem_found_iff {node : FileNode} (hnode : node.Ordered) :
  rest ∈ found tree names node
    ↔ isSource (names ++ rest) ∧ ∃ size ≤ maxBytes, Visits (layersAbove tree names) names node rest size
  := by
  rw [found, List.mem_map]
  constructor
  · rintro ⟨⟨file, size⟩, hfile, rfl⟩
    obtain ⟨hwalk, hkept⟩ := List.mem_filter.mp hfile
    obtain ⟨rest, rfl, hvisits⟩ := (mem_walk_iff hnode).mp hwalk
    obtain ⟨hsource, hsize⟩ := (Bool.and_eq_true _ _).mp hkept
    rw [List.drop_left]
    exact ⟨hsource, size, of_decide_eq_true hsize, hvisits⟩
  · rintro ⟨hsource, size, hsize, hvisits⟩
    have hwalk := (mem_walk_iff hnode).mpr ⟨rest, rfl, hvisits⟩
    refine ⟨(names ++ rest, size), List.mem_filter.mpr ⟨hwalk, ?_⟩, List.drop_left⟩
    simp [hsource, hsize]

theorem nodup_found {node : FileNode} (hnode : node.Ordered) :
  (found tree names node).Nodup
  := by
  have hwalk : ((walk (layersAbove tree names) names node).map (·.1)).Nodup := nodup_walk hnode
  apply List.Nodup.map_on
  · rintro ⟨file, size⟩ hfile ⟨other, size'⟩ hother heq
    have hfile := List.mem_of_mem_filter hfile
    have hother := List.mem_of_mem_filter hother
    apply List.inj_on_of_nodup_map hwalk hfile hother
    obtain ⟨rest, rfl, -⟩ := (mem_walk_iff hnode).mp hfile
    obtain ⟨rest', rfl, -⟩ := (mem_walk_iff hnode).mp hother
    rw [List.drop_left, List.drop_left] at heq
    rw [heq]
  · apply hwalk.of_map.filter

theorem scan_eq_found {root : String} (hresolve : tree.resolve root = .ok names) {node : FileNode}
    (hat : tree.at? names = some node) :
  scan tree root
    = (((found tree names node).mergeSort namesAtMost).map fun rest =>
        if rest.isEmpty then root else join root ("/".intercalate rest)).filter
          fun path => !(ignoreList tree root).ignores (relativeTo path root)
  := by
  rw [scan, hresolve]
  dsimp only
  rw [hat]
  rfl

/-- A folder of a project: one that is found under the names of its path. -/
structure IsProject (tree : FileTree) (root : String) (names : List String)
    (entries : List (String × FileNode)) : Prop where
  root_eq : root = absolute names
  isName : ∀ name ∈ names, IsName name
  resolve_eq : tree.resolve root = .ok names
  at?_eq : tree.at? names = some (.folder entries)

section

variable {root path : String} {entries : List (String × FileNode)} (hsound : tree.Sound)
  (htree : tree.root.Named) (hproject : IsProject tree root names entries)

include hsound htree hproject

theorem IsProject.isName_of_mem_found (hrest : rest ∈ found tree names (.folder entries)) :
  rest ≠ [] ∧ ∀ other ∈ rest, IsName other
  := by
  obtain ⟨-, hnode⟩ := htree.of_at?_eq_some hproject.at?_eq
  have hordered := hsound.ordered.of_at?_eq_some hproject.at?_eq
  obtain ⟨-, size, -, hvisits⟩ := (mem_found_iff hordered).mp hrest
  obtain ⟨other, hother, hnames⟩ :=
    exists_of_mem_walk hnode ((mem_walk_iff hordered).mpr ⟨rest, rfl, hvisits⟩)
  rw [List.append_cancel_left_eq] at hother
  constructor
  · cases hvisits
    apply List.cons_ne_nil
  · rw [hother]
    apply hnames

/-- The source files of a project are some of those that are found below its folder, in order. -/
theorem IsProject.scan_eq :
  scan tree root
    = (((found tree names (.folder entries)).mergeSort namesAtMost).map fun rest =>
        absolute (names ++ rest)).filter fun path => !(ignoreList tree root).ignores (relativeTo path root)
  := by
  rw [scan_eq_found hproject.resolve_eq hproject.at?_eq]
  congr 1
  apply List.map_congr_left
  intro rest hrest
  obtain ⟨hne, hnamed⟩ := hproject.isName_of_mem_found hsound htree (List.mem_mergeSort.mp hrest)
  rw [List.isEmpty_eq_false_iff.mpr hne, if_neg Bool.false_ne_true, join_intercalate _ hne hnamed,
    hproject.root_eq, foldl_join_absolute (List.forall_mem_append.mpr ⟨hproject.isName, hnamed⟩)]

/-- The path of a source file of a project is made of the names of the folder and of those that lead
from there to the file. -/
theorem IsProject.exists_of_mem_scan (h : path ∈ scan tree root) :
  ∃ front name, path = absolute (names ++ (front ++ [name])) ∧ (∀ other ∈ front ++ [name], IsName other)
    ∧ isSource (names ++ (front ++ [name])) ∧ relativeTo path root = "/".intercalate (front ++ [name])
  := by
  have hordered := hsound.ordered.of_at?_eq_some hproject.at?_eq
  rw [hproject.scan_eq hsound htree, List.mem_filter, List.mem_map] at h
  obtain ⟨⟨rest, hrest, rfl⟩, -⟩ := h
  have hrest := List.mem_mergeSort.mp hrest
  obtain ⟨hne, hnamed⟩ := hproject.isName_of_mem_found hsound htree hrest
  obtain ⟨hsource, -⟩ := (mem_found_iff hordered).mp hrest
  obtain ⟨front, name, rfl⟩ := List.eq_nil_or_concat rest |>.resolve_left hne
  rw [List.concat_eq_append] at hnamed hsource ⊢
  refine ⟨front, name, rfl, hnamed, hsource, ?_⟩
  rw [hproject.root_eq, relativeTo_absolute hproject.isName hnamed]

/-- The source files of a project are different, also as they are seen from there. -/
theorem IsProject.nodup_scan :
  ((scan tree root).map (relativeTo · root)).Nodup
  := by
  have hordered := hsound.ordered.of_at?_eq_some hproject.at?_eq
  apply List.Nodup.map_on
  · intro path hpath other hother heq
    obtain ⟨front, name, rfl, hrest, -, hrelative⟩ := hproject.exists_of_mem_scan hsound htree hpath
    obtain ⟨front', name', rfl, hrest', -, hrelative'⟩ := hproject.exists_of_mem_scan hsound htree hother
    rw [hrelative, hrelative'] at heq
    rw [intercalate_injective hrest hrest' (by simp) (by simp) heq]
  · rw [hproject.scan_eq hsound htree]
    apply List.Nodup.filter
    apply List.Nodup.map_on
    · intro rest hrest other hother heq
      obtain ⟨-, hnamed⟩ := hproject.isName_of_mem_found hsound htree (List.mem_mergeSort.mp hrest)
      obtain ⟨-, hnamed'⟩ := hproject.isName_of_mem_found hsound htree (List.mem_mergeSort.mp hother)
      have hnames := (absolute_inj (List.forall_mem_append.mpr ⟨hproject.isName, hnamed⟩)
        (List.forall_mem_append.mpr ⟨hproject.isName, hnamed'⟩)).mp heq
      rw [List.append_cancel_left_eq] at hnames
      apply hnames
    · apply (List.mergeSort_perm _ _).nodup_iff.mpr (nodup_found hordered)

end

end Sources

end Scrutiny
