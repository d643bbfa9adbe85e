import Mathlib.Data.List.DropRight
import Scrutiny.Proofs.Scan.Sources

/-!
# Spellings of a file

A file can be told by many paths.  What stands before its name in a path leads to the folder of the
file, however it is spelled, unless nothing stands before the name.
-/

namespace Scrutiny

namespace Path

/-! ### The folder of a path -/

theorem component?_eq_none_iff {piece : String} :
  component? piece = none ↔ piece = "" ∨ piece = "."
  := by
  rw [component?]
  simp only [Bool.or_eq_true, beq_iff_eq]
  split_ifs with hdot hdots
  · simp [hdot]
  · simp [hdot]
  · simp [hdot]

/-- Parts that count for nothing lead nowhere. -/
theorem lead_of_component?_eq_none {blank : List String} (names : List String)
    (h : ∀ piece ∈ blank, component? piece = none) :
  lead names blank = names
  := by
  induction blank with
  | nil => rfl
  | cons piece rest ih =>
      obtain ⟨hpiece, hrest⟩ := List.forall_mem_cons.mp h
      rw [lead, if_pos (by simpa using component?_eq_none_iff.mp hpiece), ih hrest]

/-- Parts are those that are left when they are trimmed, and some that count for nothing. -/
theorem exists_trimPieces_eq (first : String) (rest : List String) :
  ∃ kept blank, trimPieces (first :: rest) = first :: kept ∧ rest = kept ++ blank
    ∧ ∀ piece ∈ blank, component? piece = none
  := by
  use rest.rdropWhile fun piece => (component? piece).isNone,
    rest.rtakeWhile fun piece => (component? piece).isNone
  use rfl, List.rdropWhile_append_rtakeWhile.symm
  intro piece hpiece
  have hnone := List.mem_rtakeWhile_imp hpiece
  apply Option.isNone_iff_eq_none.mp hnone

/-- A path with more than one part is absolute if its first part is empty. -/
theorem isAbsolute_of_pieces {path first : String} {rest : List String} (hne : rest ≠ [])
    (h : pieces path = first :: rest) :
  isAbsolute path = (first == "")
  := by
  have hfirst : '/' ∉ first.toList := slash_of_mem_pieces (h ▸ List.mem_cons_self)
  have hlist : path.toList = first.toList ++ '/' :: ("/".intercalate rest).toList := by
    rw [← intercalate_pieces path, h, String.intercalate_cons_of_ne_nil hne]
    simp
  rw [isAbsolute, hlist]
  by_cases hempty : first = ""
  · rw [hempty]
    rfl
  · have hnil : first.toList ≠ [] := String.toList_eq_nil_iff.not.mpr hempty
    rw [beq_eq_false_iff_ne.mpr hempty, List.head?_append_of_ne_nil _ hnil, beq_eq_false_iff_ne]
    intro hhead
    apply hfirst (List.mem_of_mem_head? hhead)

/-- The first parts of a path make a path that starts where it does. -/
theorem ofPieces_of_pieces {path first : String} {kept more : List String} (hmore : more ≠ [])
    (hpieces : pieces path = first :: kept ++ more) :
  (pieces (ofPieces (isAbsolute path) (first :: kept)) = first :: kept
      ∧ ofPieces (isAbsolute path) (first :: kept) ≠ ""
      ∨ first :: kept = [""] ∧ ofPieces (isAbsolute path) (first :: kept) = "/")
    ∧ isAbsolute (ofPieces (isAbsolute path) (first :: kept)) = isAbsolute path
  := by
  have hfirst : isAbsolute path = (first == "") := by
    apply isAbsolute_of_pieces _ hpieces
    apply List.append_ne_nil_of_right_ne_nil _ hmore
  rw [ofPieces]
  split_ifs with htop
  · obtain ⟨habsolute, hparts⟩ := Bool.and_eq_true_iff.mp htop
    constructor
    · right
      use eq_of_beq hparts
    · rw [habsolute]
      rfl
  · have hfolder : pieces ("/".intercalate (first :: kept)) = first :: kept := by
      apply pieces_intercalate (List.cons_ne_nil first kept)
      intro part hpart
      apply @slash_of_mem_pieces path
      rw [hpieces]
      apply List.mem_append_left _ hpart
    constructor
    · left
      use hfolder
      intro hempty
      rw [hempty] at hfolder
      obtain ⟨rfl, rfl⟩ := List.cons.inj hfolder
      apply htop
      rw [hfirst]
      rfl
    · by_cases hnil : kept = []
      · have hempty : first ≠ "" := by
          rintro rfl
          apply htop
          rw [hfirst, hnil]
          rfl
        rw [hfirst, beq_eq_false_iff_ne.mpr hempty, hnil, String.intercalate_singleton]
        apply not_isAbsolute_of_slash
        apply @slash_of_mem_pieces path
        rw [hpieces]
        apply List.mem_cons_self
      · rw [isAbsolute_of_pieces hnil hfolder, hfirst]

/-- The parts of the folder of a path stand before other parts of the path. -/
theorem exists_pieces_of_parent? {path folder : String} (h : parent? path = some folder)
    (hfolder : folder ≠ "") :
  ∃ front piece rest, pieces path = front ++ piece :: rest
    ∧ (pieces folder = front ∨ pieces folder = front ++ [""])
    ∧ isAbsolute folder = isAbsolute path
  := by
  obtain ⟨first, rest, hpieces⟩ := exists_pieces_cons path
  obtain ⟨kept, blank, htrim, rfl, -⟩ := exists_trimPieces_eq first rest
  rw [parent?] at h
  split at h
  · cases h
  · cases h
  · dsimp only at h
    rw [hpieces, htrim] at h
    rcases List.eq_nil_or_concat' kept with rfl | ⟨front, last, rfl⟩
    · cases hfolder (Option.some.inj h).symm
    · rw [← List.cons_append, List.dropLast_concat] at h
      obtain ⟨kept, blank', htrim', rfl, -⟩ := exists_trimPieces_eq first front
      have hmore : blank' ++ last :: blank ≠ [] := by simp
      have hsplit : pieces path = first :: kept ++ (blank' ++ last :: blank) := by
        rw [hpieces]
        simp
      obtain ⟨piece, rest, hrest⟩ := List.exists_cons_of_ne_nil hmore
      obtain ⟨hcases, habsolute⟩ := ofPieces_of_pieces hmore hsplit
      dsimp only at h
      rw [htrim'] at h
      obtain rfl := Option.some.inj h
      use first :: kept, piece, rest
      rw [← hrest]
      use hsplit, ?_, habsolute
      rcases hcases with ⟨hsame, -⟩ | ⟨htop, hslash⟩
      · left
        apply hsame
      · right
        rw [hslash, htop]
        rfl

/-- What stands before the name in a path leads to the same folder as the parts before it. -/
theorem exists_parent?_eq {path name : String} {front : List String} (hne : front ≠ [])
    (hpieces : pieces path = front ++ [name]) (hname : IsName name) :
  ∃ folder, parent? path = some folder ∧ ∀ tree : FileTree, tree.IsFolderAt [] →
    ∀ names, tree.follow (if isAbsolute path then [] else tree.here) front = .ok names →
      tree.resolve folder = .ok names
  := by
  obtain ⟨first, rest, rfl⟩ := List.exists_cons_of_ne_nil hne
  obtain ⟨kept, blank, htrim, rfl, hblank⟩ := exists_trimPieces_eq first rest
  have hparent : parent? path = some (ofPieces (isAbsolute path) (first :: kept)) := by
    rw [parent?, getLast?_components (List.cons_ne_nil _ _) hpieces hname]
    dsimp only
    rw [hpieces, trimPieces_concat _ hname, List.dropLast_concat]
    dsimp only
    rw [htrim]
  use ofPieces (isAbsolute path) (first :: kept), hparent
  intro tree hroot names hfollow
  -- The parts that are trimmed off lead nowhere.
  rw [← List.cons_append] at hpieces hfollow
  have hkept := FileTree.exists_follow_of_append hfollow
  have hlead := FileTree.eq_lead_of_follow hfollow
  rw [lead_append, lead_of_component?_eq_none _ hblank] at hlead
  rw [← hlead] at hkept
  rw [List.append_assoc] at hpieces
  obtain ⟨⟨hsame, hempty⟩ | ⟨htop, hslash⟩, habsolute⟩ := ofPieces_of_pieces (by simp) hpieces
  · rw [FileTree.resolve, if_neg (beq_eq_false_iff_ne.mpr hempty ▸ Bool.false_ne_true), habsolute,
      hsame, hkept]
  · have hstart : isAbsolute path = true := by
      rw [← habsolute, hslash]
      rfl
    rw [hstart, if_pos rfl, htop] at hkept
    have hnames : [] = names := by simpa [lead] using FileTree.eq_lead_of_follow hkept
    rw [hslash, ← hnames]
    exact FileTree.follow_cons_eq_ok.mpr ⟨hroot, FileTree.follow_cons_eq_ok.mpr ⟨hroot, rfl⟩⟩

end Path

/-! ### Paths of a file -/

namespace FileTree

open Scrutiny.Path

variable {tree : FileTree} {path : String} {names : List String}

/-- A path leads to the file with some names, and is not only its name. -/
structure Spells (tree : FileTree) (path : String) (names : List String) : Prop where
  resolve_eq : tree.resolve path = .ok names
  isSome_file? : (tree.file? names).isSome
  slash : '/' ∈ path.toList

/-- A path of a file ends with its name, and the parts before it lead to its folder. -/
theorem Spells.exists_pieces (h : tree.Spells path names) :
  ∃ parts front name, pieces path = parts ++ [name] ∧ parts ≠ [] ∧ IsName name
    ∧ names = front ++ [name] ∧ tree.IsFolderAt front
    ∧ tree.follow (if isAbsolute path then [] else tree.here) parts = .ok front
  := by
  obtain ⟨bytes, hfile⟩ := Option.isSome_iff_exists.mp h.isSome_file?
  have hempty : ¬ (path == "") = true := by
    intro hempty
    have hslash := h.slash
    rw [eq_of_beq hempty] at hslash
    cases hslash
  have hfollow := h.resolve_eq
  rw [resolve, if_neg hempty] at hfollow
  obtain ⟨first, rest, hcons⟩ := exists_pieces_cons path
  obtain ⟨parts, last, hparts⟩ :=
    (List.eq_nil_or_concat' (pieces path)).resolve_left (hcons ▸ List.cons_ne_nil first rest)
  have hlast : '/' ∉ last.toList := slash_of_mem_pieces (hparts ▸ List.mem_concat_self ..)
  rw [hparts] at hfollow
  have hfront := exists_follow_of_append hfollow
  generalize lead (if isAbsolute path then [] else tree.here) parts = front at hfront
  rw [follow_append hfront] at hfollow
  obtain ⟨hfolder, hstep⟩ := follow_cons_eq_ok.mp hfollow
  split_ifs at hstep with hdot hdots
  · rw [Except.ok.inj hstep] at hfolder
    cases not_isFolderAt_of_file? hfile hfolder
  · rw [← Except.ok.inj hstep] at hfile
    cases not_isFolderAt_of_file? hfile hfolder.dropLast
  · refine ⟨parts, front, last, hparts, ?_, ⟨?_, hlast⟩, (Except.ok.inj hstep.2).symm, hfolder, hfront⟩
    · rintro rfl
      apply hlast
      have hpath := intercalate_pieces path
      rw [hparts, List.nil_append, String.intercalate_singleton] at hpath
      rw [hpath]
      apply h.slash
    · simp [component?, hdot, hdots]

/-- What stands before the name in a path of a file leads to the folder of the file. -/
theorem Spells.exists_parent? (hsound : tree.Sound) (h : tree.Spells path names) :
  ∃ folder front name, parent? path = some folder ∧ names = front ++ [name]
    ∧ tree.resolve folder = .ok front ∧ tree.IsFolderAt front
  := by
  obtain ⟨parts, front, name, hpieces, hne, hname, rfl, hfolder, hfollow⟩ := h.exists_pieces
  obtain ⟨folder, hparent, hresolve⟩ := exists_parent?_eq hne hpieces hname
  exact ⟨folder, front, name, hparent, rfl, hresolve tree hsound.root front hfollow, hfolder⟩

end FileTree

end Scrutiny
