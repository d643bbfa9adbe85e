import Scrutiny.Proofs.Files.Below
import Scrutiny.Proofs.Files.Spared
import Scrutiny.Proofs.Scan.Walk

/-!
# Projects that are not changed

Which source files a project has depends on these files and on those with rules about what is passed
over.  As long as these are left alone, the project has the same source files.
-/

namespace Scrutiny.Sources

open Scrutiny.Path

/-- The names of the files in which rules are found about what is passed over. -/
def ruleNames : List String := [".ignore", ".gitignore", "exclude", IgnoreList.fileName]

/-- The names of source files and of files with rules. -/
def sourceNames : Set (List String) :=
  {names | isSource names = true ∨ ∃ front, ∃ name ∈ ruleNames, names = front ++ [name]}

/-- Two trees have the same files under the names of source files and of files with rules. -/
def Agree (tree next : FileTree) : Prop :=
  ∀ names ∈ sourceNames, next.file? names = tree.file? names

variable {tree next : FileTree} {layers : List Layer} {names rest : List String} {size : Nat}
  {node node' : FileNode}

theorem Agree.symm (h : Agree tree next) :
  Agree next tree
  := fun names hnames => (h names hnames).symm

theorem at?_concat (hat : tree.at? names = some node) (others : List String) :
  tree.at? (names ++ others) = node.at? others
  := by
  rw [FileTree.at?, FileNode.at?_append, show tree.root.at? names = some node from hat, Option.bind_some]

theorem rulesAt_eq (hat : tree.at? names = some node) (others : List String) :
  rulesAt node others = ((tree.file? (names ++ others)).map GitRule.ofFile).getD []
  := by
  rw [rulesAt, FileTree.file?, at?_concat hat]
  rcases node.at? others with - | bytes | entries <;> rfl

theorem Agree.layerOf_eq (h : Agree tree next) (hat : tree.at? names = some node)
    (hat' : next.at? names = some node') :
  layerOf names node' = layerOf names node
  := by
  have hrules (front : List String) {name : String} (hname : name ∈ ruleNames) :
      rulesAt node' (front ++ [name]) = rulesAt node (front ++ [name]) := by
    rw [rulesAt_eq hat, rulesAt_eq hat', h]
    exact .inr ⟨names ++ front, name, hname, by simp⟩
  have hgeneral : rulesAt node' [".ignore"] = rulesAt node [".ignore"] :=
    hrules [] (by decide)
  have hversioned : rulesAt node' [".gitignore"] = rulesAt node [".gitignore"] :=
    hrules [] (by decide)
  have hworkingCopy : rulesAt node' [".git", "info", "exclude"] = rulesAt node [".git", "info", "exclude"] :=
    hrules [".git", "info"] (by decide)
  rw [layerOf, layerOf, hgeneral, hversioned, hworkingCopy]

/-- What is visited is a file. -/
theorem Visits.exists_file (h : Visits layers names node rest size) :
  ∃ bytes, node.at? rest = some (.file bytes) ∧ bytes.length = size
  := by
  induction h with
  | @file _ _ bytes => exact ⟨bytes, rfl, rfl⟩
  | folder hchild hpasses hrest ih =>
      obtain ⟨bytes, hbytes, hsize⟩ := ih
      refine ⟨bytes, ?_, hsize⟩
      rw [FileNode.at?, hchild, Option.bind_some, hbytes]

theorem isFolder_eq_of_at?_eq_file {bytes : List UInt8} (h : node.at? rest = some (.file bytes)) :
  node.isFolder = !rest.isEmpty
  := by
  cases rest with
  | nil =>
      obtain rfl := Option.some.inj ((FileNode.at?_nil node).symm.trans h)
      rfl
  | cons name rest =>
      cases node with
      | file bytes => cases h
      | folder entries => rfl

/-- A source file that is visited is visited as long as the source files and the rules are the same. -/
theorem Agree.visits (hagree : Agree tree next) (h : Visits layers names node rest size)
    (hsource : isSource (names ++ rest) = true) (hat : tree.at? names = some node)
    (hat' : next.at? names = some node') :
  Visits layers names node' rest size
  := by
  induction h generalizing node' with
  | @file layers names bytes =>
      rw [List.append_nil] at hsource
      have hfile := hagree names (.inl hsource)
      rw [FileTree.file?, FileTree.file?, hat, hat', Option.bind_some, Option.bind_some] at hfile
      cases node' with
      | file bytes' =>
          obtain rfl : bytes' = bytes := Option.some.inj hfile
          apply Visits.file
      | folder entries => cases hfile
  | @folder layers names entries name child rest size hchild hpasses hrest ih =>
      have hsplit : names ++ name :: rest = (names ++ [name]) ++ rest := by simp
      rw [hsplit] at hsource
      have hat₁ : tree.at? (names ++ [name]) = some child := by
        rw [at?_concat hat, FileNode.at?, hchild]
        apply FileNode.at?_nil
      obtain ⟨bytes, hbytes, -⟩ := hrest.exists_file
      have hfile : next.file? (names ++ name :: rest) = some bytes := by
        rw [hsplit, hagree _ (.inl hsource), FileTree.file?, at?_concat hat₁, hbytes]
        rfl
      rw [FileTree.file?, at?_concat hat'] at hfile
      -- The file is still found, so what leads to it is a folder, and goes on with the same names.
      cases node' with
      | file bytes' => cases hfile
      | folder entries' =>
          obtain ⟨found, hfound, hbytes'⟩ := Option.bind_eq_some_iff.mp hfile
          rw [FileNode.at?] at hfound
          obtain ⟨child', hchild', hfound⟩ := Option.bind_eq_some_iff.mp hfound
          have hat₂ : next.at? (names ++ [name]) = some child' := by
            rw [at?_concat hat', FileNode.at?, hchild']
            apply FileNode.at?_nil
          have hfolder : child'.isFolder = child.isFolder := by
            cases found with
            | file bytes₁ => rw [isFolder_eq_of_at?_eq_file hbytes, isFolder_eq_of_at?_eq_file hfound]
            | folder entries₁ => cases hbytes'
          have hlayer := hagree.layerOf_eq hat hat'
          apply Visits.folder hchild'
          · rw [hlayer, hfolder, hpasses]
          · rw [hlayer]
            apply ih hsource hat₁ hat₂

/-! ### The files of a project -/

theorem namesAtMost_iff {a b : List String} :
  namesAtMost a b = true ↔ a ≤ b
  := by
  induction a generalizing b with
  | nil => exact ⟨fun _ => not_lt.mp (List.not_lt_nil b), fun _ => rfl⟩
  | cons first rest ih =>
      cases b with
      | nil => simp [namesAtMost]
      | cons other others =>
          rw [← not_lt, List.cons_lt_cons_iff]
          simp only [namesAtMost, Bool.or_eq_true, Bool.and_eq_true, decide_eq_true_eq, beq_iff_eq, ih,
            ← not_lt]
          rcases lt_trichotomy first other with hlt | rfl | hlt
          · simp [hlt, hlt.not_gt, hlt.ne']
          · simp
          · simp [hlt, hlt.not_gt, hlt.ne']

/-- The order in which files are found does not matter for the order in which they come. -/
theorem mergeSort_eq_of_perm {files others : List (List String)} (h : files.Perm others) :
  files.mergeSort namesAtMost = others.mergeSort namesAtMost
  := by
  have hsorted (list : List (List String)) : (list.mergeSort namesAtMost).Pairwise (· ≤ ·) := by
    apply (List.pairwise_mergeSort _ _ list).imp namesAtMost_iff.mp
    · intro a b c hab hbc
      apply namesAtMost_iff.mpr ((namesAtMost_iff.mp hab).trans (namesAtMost_iff.mp hbc))
    · intro a b
      rw [Bool.or_eq_true, namesAtMost_iff, namesAtMost_iff]
      apply le_total a b
  have hperm := (List.mergeSort_perm files namesAtMost).trans
    (h.trans (List.mergeSort_perm others namesAtMost).symm)
  apply hperm.eq_of_pairwise (fun _ _ _ _ => le_antisymm) (hsorted files) (hsorted others)

section

variable {root : String} {entries : List (String × FileNode)} (hsound : tree.Sound)
  (hspares : FileTree.Spares sourceNames tree next)

include hspares

theorem layersAbove_eq (hfolder : tree.IsFolderAt names) :
  layersAbove next names = layersAbove tree names
  := by
  rw [layersAbove, layersAbove]
  congr 1
  apply List.map_congr_left
  intro count _
  rw [← List.take_append_drop count names] at hfolder
  obtain ⟨entries, hat⟩ := hfolder.of_append
  obtain ⟨entries', hat'⟩ := hspares.isFolderAt _ hfolder.of_append
  change layerOf _ ((next.root.at? _).getD _) = layerOf _ ((tree.root.at? _).getD _)
  rw [hat, hat']
  exact Agree.layerOf_eq hspares.file?_eq hat hat'

/-- The folder of a project stays the folder of a project. -/
theorem IsProject.of_spares (hproject : IsProject tree root names entries) :
  ∃ entries', IsProject next root names entries'
  := by
  obtain ⟨entries', hat'⟩ := hspares.isFolderAt names ⟨entries, hproject.at?_eq⟩
  exact ⟨entries', hproject.root_eq, hproject.isName,
    FileTree.resolve_of_keeps hspares.toKeeps hproject.resolve_eq, hat'⟩

include hsound

theorem perm_found {entries' : List (String × FileNode)} (hat : tree.at? names = some (.folder entries))
    (hat' : next.at? names = some (.folder entries')) :
  (found next names (.folder entries')).Perm (found tree names (.folder entries))
  := by
  have hagree : Agree tree next := hspares.file?_eq
  have hordered := hsound.ordered.of_at?_eq_some hat
  have hordered' := hspares.sound.ordered.of_at?_eq_some hat'
  have hlayers := layersAbove_eq hspares ⟨entries, hat⟩
  apply (List.perm_ext_iff_of_nodup (nodup_found hordered') (nodup_found hordered)).mpr
  intro rest
  rw [mem_found_iff hordered', mem_found_iff hordered, hlayers]
  constructor
  · rintro ⟨hsource, size, hsize, hvisits⟩
    exact ⟨hsource, size, hsize, hagree.symm.visits hvisits hsource hat' hat⟩
  · rintro ⟨hsource, size, hsize, hvisits⟩
    exact ⟨hsource, size, hsize, hagree.visits hvisits hsource hat hat'⟩

theorem IsProject.ignoreList_eq (hproject : IsProject tree root names entries) :
  ignoreList next root = ignoreList tree root
  := by
  have hname : IsName IgnoreList.fileName := by
    apply isName_of_length <;> decide
  have hreaches := FileTree.reaches_of_resolve hproject.resolve_eq
  have hread {any : FileTree} (hany : any.Sound) (hreaches : any.Reaches root) :
      (any.read (join root IgnoreList.fileName)).toOption
        = any.file? (any.base root ++ [IgnoreList.fileName]) := by
    apply FileTree.toOption_read_foldl_join hany hreaches (List.cons_ne_nil IgnoreList.fileName [])
    · intro name hmem
      rw [List.mem_singleton.mp hmem]
      apply hname
    · decide
  have hsame : (next.read (join root IgnoreList.fileName)).toOption
      = (tree.read (join root IgnoreList.fileName)).toOption := by
    rw [hread hsound hreaches, hread hspares.sound (hspares.toKeeps.reaches hreaches),
      hspares.toKeeps.base_eq, hspares.file?_eq]
    exact .inr ⟨_, IgnoreList.fileName, by decide, rfl⟩
  rw [ignoreList, ignoreList, FileTree.readText, FileTree.readText]
  generalize next.read (join root IgnoreList.fileName) = found' at hsame ⊢
  generalize tree.read (join root IgnoreList.fileName) = found at hsame ⊢
  cases found' <;> cases found <;> cases hsame <;> rfl

/-- The source files of a project are the same as long as they and the rules are left alone. -/
theorem IsProject.scan_of_spares (hproject : IsProject tree root names entries) :
  scan next root = scan tree root
  := by
  obtain ⟨entries', hproject'⟩ := hproject.of_spares hspares
  rw [scan_eq_found hproject.resolve_eq hproject.at?_eq,
    scan_eq_found hproject'.resolve_eq hproject'.at?_eq,
    mergeSort_eq_of_perm (perm_found hsound hspares hproject.at?_eq hproject'.at?_eq),
    hproject.ignoreList_eq hsound hspares]

/-- The source files of a project are read as before as long as they are left alone. -/
theorem IsProject.toOption_read_of_spares (hnamed : tree.root.Named)
    (hproject : IsProject tree root names entries) {path : String} (hpath : path ∈ scan tree root) :
  (next.read path).toOption = (tree.read path).toOption
  := by
  obtain ⟨front, name, rfl, hrest, hsource, -⟩ := hproject.exists_of_mem_scan hsound hnamed hpath
  have hall := List.forall_mem_append.mpr ⟨hproject.isName, hrest⟩
  have hne : names ++ (front ++ [name]) ≠ [] := by simp
  have hiff (any : FileTree) (hany : any.Sound) (bytes : List UInt8) :
      (any.read (absolute (names ++ (front ++ [name])))).toOption = some bytes
        ↔ (∀ other ∈ names ++ (front ++ [name]), other.utf8ByteSize ≤ FileTree.maxName)
          ∧ any.file? (names ++ (front ++ [name])) = some bytes := by
    rw [← read_absolute_eq_ok_iff hany hne hall]
    cases any.read (absolute (names ++ (front ++ [name]))) <;> simp [Except.toOption]
  apply Option.ext
  intro bytes
  rw [hiff next hspares.sound, hiff tree hsound, hspares.file?_eq _ (.inl hsource)]

end

end Scrutiny.Sources
