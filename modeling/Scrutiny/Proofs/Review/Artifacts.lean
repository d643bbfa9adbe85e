import Mathlib.Data.Set.Basic
import Scrutiny.Proofs.Review.Spared
import Scrutiny.Proofs.Scan.Sources

/-!
# Written audits

The audit of a source file is written below a folder as the file lies below its project, under the
name of the file without its extension.  So two files of one folder whose names differ by their
extensions only have the same written audit, and so have a file and the summary of a project.  All
other audits are there when the audit of a project has ended.
-/

namespace Scrutiny

open Scrutiny.Path

namespace FileAudit

/-- The name of the file that the audit of a source file is written to. -/
def artifactName (name : String) : String :=
  (splitExtension name).1 ++ ending

theorem mem_of_mem_fst_splitExtension {name : String} {c : Char}
    (h : c ∈ (splitExtension name).1.toList) :
  c ∈ name.toList
  := by
  rw [splitExtension] at h
  split at h
  · apply h
  · rename_i first stem hdrop
    split at h
    · apply h
    · rw [String.toList_ofList, List.mem_reverse] at h
      have hmem := List.mem_cons_of_mem first h
      rw [← hdrop] at hmem
      apply List.mem_reverse.mp (List.mem_of_mem_drop hmem)

theorem isName_artifactName {name : String} (h : IsName name) :
  IsName (artifactName name)
  := by
  apply isName_of_length
  · have hending : ending.length = 11 := rfl
    rw [artifactName, String.length_append, hending]
    omega
  · rw [artifactName, String.toList_append, List.mem_append]
    rintro (hstem | hending)
    · apply h.slash (mem_of_mem_fst_splitExtension hstem)
    · revert hending
      decide

theorem artifactName_eq_iff {name : String} {stem : String} :
  artifactName name = stem ++ ending ↔ (splitExtension name).1 = stem
  := by
  constructor
  · intro h
    have hlist := congrArg String.toList h
    rw [artifactName, String.toList_append, String.toList_append] at hlist
    apply String.toList_inj.mp (List.append_cancel_right hlist)
  · rintro rfl
    rfl

/-! ### Where audits are written -/

/-- A file lies below a folder, under names that both absolute paths tell. -/
structure IsBelow (root path : String) (names front : List String) (name : String) : Prop where
  root_eq : root = absolute names
  path_eq : path = absolute (names ++ (front ++ [name]))
  isName : ∀ other ∈ names ++ (front ++ [name]), IsName other

/-- Two files have the same folder, and the same name but for its extension. -/
def SameStem (path other : String) : Prop :=
  parent? path = parent? other ∧ stem? path = stem? other

/-- A file in the folder of a project has the name of the summary but for its extension. -/
def HasSummaryName (root path : String) : Prop :=
  parent? path = some root ∧ stem? path = some "_summary"

section

variable {root path : String} {names front : List String} {name : String}
  (hbelow : IsBelow root path names front name)

include hbelow

theorem IsBelow.isName_names :
  ∀ other ∈ names, IsName other
  := fun other hother => hbelow.isName other (List.mem_append_left _ hother)

theorem IsBelow.isName_rest :
  ∀ other ∈ front ++ [name], IsName other
  := fun other hother => hbelow.isName other (List.mem_append_right _ hother)

theorem IsBelow.isName_name :
  IsName name
  := hbelow.isName_rest name (by simp)

theorem IsBelow.isName_artifact :
  ∀ other ∈ front ++ [artifactName name], IsName other
  := by
  rw [List.forall_mem_append, List.forall_mem_singleton]
  constructor
  · intro other hother
    apply hbelow.isName_rest other (List.mem_append_left _ hother)
  · apply isName_artifactName hbelow.isName_name

theorem IsBelow.isName_folder :
  ∀ other ∈ names ++ front, IsName other
  := by
  intro other hother
  apply hbelow.isName
  rw [← List.append_assoc]
  apply List.mem_append_left _ hother

theorem IsBelow.parent?_eq :
  parent? path = some (absolute (names ++ front))
  := by
  have hpath : names ++ (front ++ [name]) = (names ++ front) ++ [name] := by simp
  rw [hbelow.path_eq, hpath]
  apply parent?_absolute
  rw [← hpath]
  apply hbelow.isName

theorem IsBelow.fileName?_eq :
  fileName? path = some name
  := by
  have hpath : names ++ (front ++ [name]) = (names ++ front) ++ [name] := by simp
  rw [hbelow.path_eq, hpath]
  apply fileName?_absolute hbelow.isName_name

theorem IsBelow.stem?_eq :
  stem? path = some (splitExtension name).1
  := by
  rw [stem?, hbelow.fileName?_eq]
  rfl

/-- The audit of a file is written below the folder for audits as the file lies below its project. -/
theorem IsBelow.artifactPath_eq (out : Option String) :
  artifactPath path root out = (front ++ [artifactName name]).foldl join (out.getD root)
  := by
  rw [List.foldl_append, List.foldl_cons, List.foldl_nil]
  cases out with
  | none =>
      rw [artifactPath, hbelow.stem?_eq, Option.getD_none, withFileName, hbelow.fileName?_eq, hbelow.parent?_eq, hbelow.root_eq,
        foldl_join_absolute hbelow.isName_folder]
      rfl
  | some folder =>
      have hrelative : stripBase? path root = some ("/".intercalate (front ++ [name])) := by
        rw [hbelow.path_eq, hbelow.root_eq]
        apply stripBase?_absolute hbelow.isName_names hbelow.isName_rest
      rw [artifactPath, hbelow.stem?_eq, Option.getD_some, hrelative, Option.getD_some, parent?_intercalate hbelow.isName_rest, Option.getD_some]
      by_cases hnil : front = []
      · rw [hnil]
        apply join_join_empty _ (isName_artifactName hbelow.isName_name)
      · rw [join_intercalate _ hnil]
        · rfl
        · intro other hother
          apply hbelow.isName_rest other (List.mem_append_left _ hother)

theorem IsBelow.fileName?_artifactPath (out : Option String) :
  fileName? (artifactPath path root out) = some (artifactName name)
  := by
  rw [hbelow.artifactPath_eq, List.foldl_append]
  apply fileName?_join _ (isName_artifactName hbelow.isName_name)

theorem IsBelow.namesOf_artifactPath (tree : FileTree) (out : Option String) :
  tree.namesOf (artifactPath path root out)
    = tree.base (out.getD root) ++ (front ++ [artifactName name])
  := by
  rw [hbelow.artifactPath_eq]
  apply FileTree.namesOf_foldl_join (by simp) hbelow.isName_artifact

/-- The absolute path of a file is the path under which it is found. -/
theorem IsBelow.eq_of_canonical {tree : FileTree} (hsound : tree.Sound) {file : String}
    (h : tree.canonical path = .ok file) :
  file = path
  := by
  obtain ⟨names, hresolve, -, rfl⟩ := FileTree.canonical_eq_ok_iff.mp h
  obtain ⟨rfl, -⟩ := FileTree.of_resolve_eq_ok hsound hresolve
  rw [hbelow.path_eq, namesOf_absolute tree hbelow.isName]
  rfl

end

section

variable {root path other : String} {names front front' : List String} {name name' : String}

/-- Two files have the same folder, and the same name but for its extension, if their audits have the
same names below the folder for audits. -/
theorem names_eq_iff (h : IsBelow root path names front name)
    (h' : IsBelow root other names front' name') :
  front ++ [artifactName name] = front' ++ [artifactName name'] ↔ SameStem path other
  := by
  rw [SameStem, h.parent?_eq, h'.parent?_eq, h.stem?_eq, h'.stem?_eq, Option.some_inj, Option.some_inj,
    absolute_inj h.isName_folder h'.isName_folder, List.append_cancel_left_eq]
  constructor
  · intro hnames
    obtain ⟨rfl, hname⟩ := List.append_inj' hnames rfl
    use rfl
    apply artifactName_eq_iff.mp (List.singleton_inj.mp hname)
  · rintro ⟨rfl, hstem⟩
    rw [artifactName_eq_iff.mpr hstem, artifactName]

theorem names_eq_summary_iff (h : IsBelow root path names front name) :
  front ++ [artifactName name] = [ProjectAudit.summaryFile] ↔ HasSummaryName root path
  := by
  rw [HasSummaryName, h.parent?_eq, h.stem?_eq, Option.some_inj, Option.some_inj, h.root_eq,
    absolute_inj h.isName_folder h.isName_names, List.append_right_eq_self]
  constructor
  · intro hnames
    have hnames : front ++ [artifactName name] = [] ++ ["_summary" ++ ending] := hnames
    obtain ⟨hfront, hname⟩ := List.append_inj' hnames rfl
    use hfront
    apply artifactName_eq_iff.mp (List.singleton_inj.mp hname)
  · rintro ⟨rfl, hstem⟩
    rw [artifactName_eq_iff.mpr hstem]
    rfl

theorem namesOf_summaryPath (tree : FileTree) (folder : String) :
  tree.namesOf (join folder ProjectAudit.summaryFile) = tree.base folder ++ [ProjectAudit.summaryFile]
  := by
  have hjoin : join folder ProjectAudit.summaryFile = [ProjectAudit.summaryFile].foldl join folder := rfl
  rw [hjoin]
  apply FileTree.namesOf_foldl_join (List.cons_ne_nil _ _)
  intro other hother
  rw [List.mem_singleton.mp hother]
  apply isName_of_length <;> decide

/-- The audits of two files are written to one place if the files have the same folder, and the same
name but for its extension. -/
theorem namesOf_artifactPath_eq_iff (h : IsBelow root path names front name)
    (h' : IsBelow root other names front' name') (tree : FileTree) (out : Option String) :
  tree.namesOf (artifactPath path root out) = tree.namesOf (artifactPath other root out)
    ↔ SameStem path other
  := by
  rw [h.namesOf_artifactPath, h'.namesOf_artifactPath, List.append_cancel_left_eq, names_eq_iff h h']

theorem artifactPath_eq_iff (h : IsBelow root path names front name)
    (h' : IsBelow root other names front' name') (out : Option String) :
  artifactPath path root out = artifactPath other root out ↔ SameStem path other
  := by
  constructor
  · intro heq
    rw [← namesOf_artifactPath_eq_iff h h' FileTree.empty out, heq]
  · intro hsame
    rw [h.artifactPath_eq, h'.artifactPath_eq, (names_eq_iff h h').mpr hsame]

/-- The summary of a project is written to the place of the audit of a file with its name. -/
theorem namesOf_artifactPath_eq_summary_iff (h : IsBelow root path names front name) (tree : FileTree)
    (out : Option String) :
  tree.namesOf (artifactPath path root out)
      = tree.namesOf (join (out.getD root) ProjectAudit.summaryFile)
    ↔ HasSummaryName root path
  := by
  rw [h.namesOf_artifactPath, namesOf_summaryPath, List.append_cancel_left_eq, names_eq_summary_iff h]

theorem artifactPath_eq_summary_iff (h : IsBelow root path names front name) (out : Option String) :
  artifactPath path root out = join (out.getD root) ProjectAudit.summaryFile ↔ HasSummaryName root path
  := by
  constructor
  · intro heq
    rw [← namesOf_artifactPath_eq_summary_iff h FileTree.empty out, heq]
  · intro hsummary
    rw [h.artifactPath_eq, (names_eq_summary_iff h).mpr hsummary]
    rfl

end

end FileAudit

end Scrutiny
