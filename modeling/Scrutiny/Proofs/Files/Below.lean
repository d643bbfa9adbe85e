import Scrutiny.Proofs.Files.Actions
import Scrutiny.Proofs.Path

/-!
# Files below a folder

Names that are joined to the path of a folder lead to what stands under them below the folder.
If the folder can be reached, a file below it is read from where it stands.
-/

namespace Scrutiny

namespace Path

theorem lead_append (names front back : List String) :
  lead names (front ++ back) = lead (lead names front) back
  := by
  induction front generalizing names with
  | nil => rfl
  | cons piece rest ih =>
      rw [List.cons_append, lead, lead]
      split_ifs <;> apply ih

theorem IsName.ne {name : String} (h : IsName name) :
  ¬ (name = "" ∨ name = ".") ∧ name ≠ ".."
  := by
  constructor
  · rintro (rfl | rfl)
    · cases h.component?_eq
    · cases h.component?_eq
  · rintro rfl
    cases h.component?_eq

/-- Names lead to what is under them. -/
theorem lead_of_isName (names : List String) {others : List String}
    (h : ∀ name ∈ others, IsName name) :
  lead names others = names ++ others
  := by
  induction others generalizing names with
  | nil => rw [lead, List.append_nil]
  | cons name rest ih =>
      obtain ⟨hdot, hdots⟩ := (h name List.mem_cons_self).ne
      rw [lead]
      simp only [Bool.or_eq_true, beq_iff_eq]
      rw [if_neg hdot, if_neg hdots, ih _ fun other hother => h other (List.mem_cons_of_mem _ hother),
        List.append_assoc]
      rfl

theorem pieces_foldl_join (root : String) {names : List String} (hne : names ≠ [])
    (h : ∀ name ∈ names, IsName name) :
  pieces (names.foldl join root) = folderPieces root ++ names
  := by
  induction names generalizing root with
  | nil => contradiction
  | cons name rest ih =>
      have hname := h name List.mem_cons_self
      rw [List.foldl_cons]
      by_cases hrest : rest = []
      · rw [hrest, List.foldl_nil, pieces_join root hname]
      · rw [ih _ hrest fun other hother => h other (List.mem_cons_of_mem _ hother),
          folderPieces_join root hname, List.append_assoc]
        rfl

theorem isAbsolute_foldl_join (root : String) {names : List String}
    (h : ∀ name ∈ names, IsName name) :
  isAbsolute (names.foldl join root) = isAbsolute root
  := by
  induction names generalizing root with
  | nil => rfl
  | cons name rest ih =>
      rw [List.foldl_cons, ih _ fun other hother => h other (List.mem_cons_of_mem _ hother),
        isAbsolute_join root (h name List.mem_cons_self)]

end Path

namespace FileTree

open Scrutiny.Path

variable {tree next : FileTree} {root : String}

/-- The names that lead to a folder, by its path. -/
def base (tree : FileTree) (root : String) : List String :=
  lead (if isAbsolute root then [] else tree.here) (folderPieces root)

/-- The folder can be reached. -/
def Reaches (tree : FileTree) (root : String) : Prop :=
  tree.follow (if isAbsolute root then [] else tree.here) (folderPieces root)
    = .ok (tree.base root)

theorem Keeps.base_eq (h : tree.Keeps next) (root : String) :
  next.base root = tree.base root
  := by
  rw [base, base, h.here_eq]

theorem Keeps.reaches (h : tree.Keeps next) (hreaches : tree.Reaches root) :
  next.Reaches root
  := by
  rw [Reaches, h.base_eq, h.here_eq]
  apply follow_of_keeps h hreaches

theorem namesOf_of_pieces {path : String} {names : List String}
    (hpieces : pieces path = folderPieces root ++ names) (h : ∀ name ∈ names, IsName name)
    (habsolute : isAbsolute path = isAbsolute root) :
  tree.namesOf path = tree.base root ++ names
  := by
  rw [namesOf, hpieces, habsolute, lead_append, lead_of_isName _ h]
  rfl

theorem namesOf_foldl_join {names : List String} (hne : names ≠ [])
    (h : ∀ name ∈ names, IsName name) :
  tree.namesOf (names.foldl join root) = tree.base root ++ names
  := by
  apply namesOf_of_pieces (pieces_foldl_join root hne h) h (isAbsolute_foldl_join root h)

/-- The temporary file has another ending than its file. -/
theorem namesOf_temporary_foldl_join {front : List String} {folder name : String}
    (h : ∀ other ∈ front ++ [folder, name], IsName other) :
  tree.namesOf (temporary ((front ++ [folder, name]).foldl join root))
    = tree.base root ++ (front ++ [folder, name ++ temporaryEnding])
  := by
  have hfolder : IsName folder := h folder (by simp)
  have hname : IsName name := h name (by simp)
  have hpieces : pieces ((front ++ [folder, name]).foldl join root)
      = (folderPieces root ++ front) ++ [folder, name] := by
    rw [pieces_foldl_join root (by simp) h, List.append_assoc]
  apply namesOf_of_pieces
  · rw [pieces_temporary hpieces hfolder hname, List.append_assoc]
  · intro other hother
    simp only [List.mem_append, List.mem_cons, List.not_mem_nil, or_false] at hother
    rcases hother with hother | rfl | rfl
    · apply h other (by simp [hother])
    · apply hfolder
    · apply hname.append <;> decide
  · rw [isAbsolute_temporary hpieces hfolder hname, isAbsolute_foldl_join root h]

/-! ### Reading below a folder -/

theorem follow_append {names found : List String} {front back : List String}
    (h : tree.follow names front = .ok found) :
  tree.follow names (front ++ back) = tree.follow found back
  := by
  induction front generalizing names with
  | nil =>
      rw [follow] at h
      rw [List.nil_append, Except.ok.inj h]
  | cons piece rest ih =>
      rw [List.cons_append]
      rw [follow] at h ⊢
      cases henter : tree.enter names with
      | error e =>
          rw [henter] at h
          cases h
      | ok u =>
          rw [henter] at h
          dsimp only at h ⊢
          split_ifs at h ⊢ <;> apply ih h

/-- What can be followed can be followed to each part on the way. -/
theorem exists_follow_of_append {names found : List String} {front back : List String}
    (h : tree.follow names (front ++ back) = .ok found) :
  tree.follow names front = .ok (lead names front)
  := by
  induction front generalizing names with
  | nil => rfl
  | cons piece rest ih =>
      rw [List.cons_append] at h
      obtain ⟨hfolder, h⟩ := follow_cons_eq_ok.mp h
      rw [follow_cons_eq_ok, lead]
      use hfolder
      simp only [Bool.or_eq_true, beq_iff_eq]
      split_ifs at h ⊢
      · apply ih h
      · apply ih h
      · use h.1, ih h.2

/-- No name is too long that was followed. -/
theorem short_of_follow {names found pieces : List String} (h : tree.follow names pieces = .ok found) :
  ∀ piece ∈ pieces, IsName piece → piece.utf8ByteSize ≤ maxName
  := by
  induction pieces generalizing names with
  | nil => exact fun _ hpiece => absurd hpiece List.not_mem_nil
  | cons first rest ih =>
      obtain ⟨-, h⟩ := follow_cons_eq_ok.mp h
      split_ifs at h with hdot hdots
      · apply List.forall_mem_cons.mpr ⟨fun hname => ?_, ih h⟩
        cases hname.ne.1 hdot
      · apply List.forall_mem_cons.mpr ⟨fun hname => ?_, ih h⟩
        cases hname.ne.2 hdots
      · apply List.forall_mem_cons.mpr ⟨fun _ => h.1, ih h.2⟩

theorem reaches_of_follow {names : List String}
    (h : tree.follow (if isAbsolute root then [] else tree.here) (pieces root) = .ok names) :
  tree.Reaches root
  := by
  rw [Reaches, base, folderPieces]
  by_cases hlast : (pieces root).getLast? = some ""
  · obtain ⟨front, hfront⟩ := List.getLast?_eq_some_iff.mp hlast
    rw [hfront] at h
    rw [if_pos hlast, hfront, List.dropLast_concat]
    apply exists_follow_of_append h
  · rw [← List.append_nil (pieces root)] at h
    rw [if_neg hlast]
    apply exists_follow_of_append h

theorem reaches_of_resolve {names : List String} (h : tree.resolve root = .ok names) :
  tree.Reaches root
  := by
  rw [resolve] at h
  by_cases hempty : (root == "") = true
  · rw [if_pos hempty] at h
    cases h
  · rw [if_neg hempty] at h
    apply reaches_of_follow h

theorem resolve_of_pieces {path name : String} {front : List String} (hpieces : pieces path = front ++ [name])
    (hname : IsName name) :
  tree.resolve path = tree.follow (if isAbsolute path then [] else tree.here) (front ++ [name])
  := by
  rw [resolve, if_neg, hpieces]
  intro hempty
  rw [eq_of_beq hempty] at hpieces
  have hmem : name ∈ pieces "" := by
    rw [hpieces]
    apply List.mem_append_right _ (List.mem_singleton_self name)
  apply hname.ne_empty (List.mem_singleton.mp hmem)

/-- Whether a path in a folder can be followed does not depend on its last name. -/
theorem exists_resolve_join {folder first second : String} {names : List String} (hfirst : IsName first)
    (hsecond : IsName second) (hshort : second.utf8ByteSize ≤ maxName)
    (h : tree.resolve (join folder first) = .ok names) :
  ∃ others, tree.resolve (join folder second) = .ok others
  := by
  rw [resolve_of_pieces (pieces_join folder hfirst) hfirst, isAbsolute_join folder hfirst] at h
  rw [resolve_of_pieces (pieces_join folder hsecond) hsecond, isAbsolute_join folder hsecond]
  have hfront := exists_follow_of_append h
  rw [follow_append hfront] at h
  obtain ⟨hfolder, -⟩ := follow_cons_eq_ok.mp h
  obtain ⟨hdot, hdots⟩ := hsecond.ne
  rw [follow_append hfront]
  use lead (if isAbsolute folder then [] else tree.here) (folderPieces folder) ++ [second]
  rw [follow_cons_eq_ok, if_neg hdot, if_neg hdots]
  exact ⟨hfolder, hshort, rfl⟩

/-- The names of a file can be followed from any folder on the way to it. -/
theorem follow_of_file? {names others : List String} {bytes : List UInt8}
    (hnames : ∀ name ∈ others, IsName name)
    (hshort : ∀ name ∈ others, name.utf8ByteSize ≤ maxName)
    (hfile : tree.file? (names ++ others) = some bytes) :
  tree.follow names others = .ok (names ++ others)
  := by
  induction others generalizing names with
  | nil => rw [follow, List.append_nil]
  | cons name rest ih =>
      obtain ⟨hdot, hdots⟩ := (hnames name List.mem_cons_self).ne
      have hrest : names ++ [name] ++ rest = names ++ name :: rest := by simp
      rw [follow_cons_eq_ok, if_neg hdot, if_neg hdots]
      constructor
      · apply isFolderAt_of_file? (List.cons_ne_nil name rest) hfile
      · use hshort name List.mem_cons_self
        rw [← hrest]
        apply ih
        · intro other hother
          apply hnames other (List.mem_cons_of_mem _ hother)
        · intro other hother
          apply hshort other (List.mem_cons_of_mem _ hother)
        · rw [hrest, hfile]

/-- A file below a folder is read from where it stands, and a file that is not there is not read. -/
theorem toOption_read_foldl_join (hsound : tree.Sound) (hreaches : tree.Reaches root)
    {names : List String} (hne : names ≠ []) (hnames : ∀ name ∈ names, IsName name)
    (hshort : ∀ name ∈ names, name.utf8ByteSize ≤ maxName) :
  (tree.read (names.foldl join root)).toOption = tree.file? (tree.base root ++ names)
  := by
  have hlead : tree.namesOf (names.foldl join root) = tree.base root ++ names :=
    namesOf_foldl_join hne hnames
  cases hfile : tree.file? (tree.base root ++ names) with
  | some bytes =>
      have hread : tree.read (names.foldl join root) = .ok bytes := by
        apply read_eq_ok_iff.mpr
        use tree.base root ++ names
        use ?_, hfile
        obtain ⟨front, last, rfl⟩ := (List.eq_nil_or_concat' names).resolve_left hne
        have hpieces := pieces_foldl_join root hne hnames
        rw [← List.append_assoc] at hpieces
        rw [resolve_of_pieces hpieces (hnames last (List.mem_concat_self ..)),
          isAbsolute_foldl_join root hnames, List.append_assoc, follow_append hreaches]
        apply follow_of_file? hnames hshort hfile
      rw [hread]
      rfl
  | none =>
      cases hread : tree.read (names.foldl join root) with
      | error e => rfl
      | ok bytes =>
          obtain ⟨found, hresolve, hbytes⟩ := read_eq_ok_iff.mp hread
          obtain ⟨rfl, -⟩ := of_resolve_eq_ok hsound hresolve
          rw [hlead, hfile] at hbytes
          cases hbytes

/-! ### The files below a folder -/

theorem namesOf_eq_base (tree : FileTree) (root : String) :
  tree.namesOf root = tree.base root
  := by
  rw [namesOf, base, folderPieces]
  by_cases hlast : (pieces root).getLast? = some ""
  · obtain ⟨front, hfront⟩ := List.getLast?_eq_some_iff.mp hlast
    rw [if_pos hlast, hfront, List.dropLast_concat, lead_append]
    rfl
  · rw [if_neg hlast]

/-- A path in the listing of a folder is made of the names that lead to a file below it. -/
theorem exists_file?_of_mem_listing (hsound : tree.Sound) {path : String}
    (h : path ∈ tree.listing root) :
  ∃ names bytes, path = "/".intercalate names ∧ tree.file? (tree.base root ++ names) = some bytes
  := by
  rw [listing] at h
  split at h
  · rename_i entries hfind
    have hat : tree.at? (tree.base root) = some (.folder entries) := by
      cases hresolve : tree.resolve root with
      | error e =>
          rw [find, hresolve] at hfind
          cases hfind
      | ok found =>
          obtain ⟨rfl, -⟩ := of_resolve_eq_ok hsound hresolve
          rw [find, hresolve] at hfind
          rw [← namesOf_eq_base]
          cases hat : tree.at? (tree.namesOf root) with
          | none => simp [hat] at hfind
          | some node => simpa [hat] using hfind
    obtain ⟨⟨names, bytes⟩, hfile, rfl⟩ := List.mem_map.mp (List.mem_mergeSort.mp h)
    use names, bytes, rfl
    have hordered : FileNode.Ordered (.folder entries) := hsound.ordered.of_at?_eq_some hat
    have hbelow : FileNode.at? names (.folder entries) = some (.file bytes) :=
      FileNode.at?_of_mem_files hordered hfile
    rw [at?] at hat
    rw [file?, at?, FileNode.at?_append, hat, Option.bind_some, hbelow]
    rfl
  · cases h

end FileTree

end Scrutiny
