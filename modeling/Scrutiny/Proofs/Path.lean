import Mathlib.Data.List.Basic
import Scrutiny.Files.Atomic
import Scrutiny.Proofs.Text.Lines

/-!
# Parts of paths

A path is the join of its parts.  Joining a name to a path adds it to the parts, and the path of
the temporary file has the parts of its file, the last of them with another ending.
-/

namespace Scrutiny.Path

open Text

/-- A text that is one name: it has no slash, and no meaning of its own as a part of a path. -/
structure IsName (name : String) : Prop where
  /-- It is a component. -/
  component?_eq : component? name = some (.name name)
  /-- It is a single part. -/
  slash : '/' ∉ name.toList

theorem IsName.ne_empty {name : String} (h : IsName name) :
  name ≠ ""
  := by
  rintro rfl
  cases h.component?_eq

/-- The parts of a path without the empty one after a slash at its end. -/
def folderPieces (path : String) : List String :=
  if (pieces path).getLast? = some "" then (pieces path).dropLast else pieces path

theorem map_toList_pieces (path : String) :
  (pieces path).map String.toList = splitAt '/' path.toList
  := by
  rw [pieces, List.map_map]
  convert List.map_id _
  funext chars
  apply String.toList_ofList

/-- The parts of parts between slashes. -/
theorem pieces_intercalate {parts : List String} (hne : parts ≠ [])
    (hslash : ∀ part ∈ parts, '/' ∉ part.toList) :
  pieces ("/".intercalate parts) = parts
  := by
  apply List.map_injective_iff.mpr fun _ _ h => String.toList_inj.mp h
  rw [map_toList_pieces, String.toList_intercalate, splitAt_eq_splitOn]
  apply List.splitOn_intercalate
  · intro chars hchars
    obtain ⟨part, hpart, rfl⟩ := List.mem_map.mp hchars
    apply hslash part hpart
  · simpa using hne

theorem intercalate_pieces (path : String) :
  "/".intercalate (pieces path) = path
  := by
  apply String.toList_inj.mp
  rw [String.toList_intercalate, map_toList_pieces, splitAt_eq_splitOn]
  apply List.intercalate_splitOn

theorem slash_of_mem_pieces {path piece : String} (h : piece ∈ pieces path) :
  '/' ∉ piece.toList
  := by
  obtain ⟨chars, hchars, rfl⟩ := List.mem_map.mp h
  rw [String.toList_ofList]
  apply not_mem_of_mem_splitAt hchars

/-! ### Joining a name -/

theorem not_isAbsolute_of_slash {name : String} (h : '/' ∉ name.toList) :
  isAbsolute name = false
  := by
  rw [isAbsolute, beq_eq_false_iff_ne]
  intro hhead
  apply h (List.mem_of_mem_head? hhead)

/-- Only the empty path and a path that ends with a slash have an empty last part. -/
theorem of_getLast?_pieces_eq_empty {path : String} (h : (pieces path).getLast? = some "") :
  path = "" ∨ path.toList.getLast? = some '/'
  := by
  obtain ⟨front, hfront⟩ := List.getLast?_eq_some_iff.mp h
  have hpath := intercalate_pieces path
  rw [hfront] at hpath
  by_cases hnil : front = []
  · left
    rw [← hpath, hnil]
    simp
  · right
    have hmap : front.map String.toList ≠ [] := List.map_eq_nil_iff.not.mpr hnil
    have hjoin := joinWith_append ['/'] hmap (List.cons_ne_nil [] [])
    rw [joinWith_eq_intercalate] at hjoin
    rw [← hpath, String.toList_intercalate, List.map_append]
    have hlast : ["".toList] = ([[]] : List (List Char)) := rfl
    rw [List.map_singleton, hlast]
    have hslash : "/".toList = ['/'] := rfl
    rw [hslash, hjoin]
    simp [joinWith]

theorem pieces_of_toList_eq {path : String} {front back : List Char}
    (h : path.toList = front ++ '/' :: back) :
  pieces path = pieces (String.ofList front) ++ pieces (String.ofList back)
  := by
  rw [pieces, pieces, pieces, h, splitAt_eq_splitOn, List.splitOn_append_cons_self]
  simp [splitAt_eq_splitOn]

theorem pieces_of_slash {name : String} (h : '/' ∉ name.toList) :
  pieces name = [name]
  := by
  rw [pieces, splitAt_eq_splitOn, List.splitOn_eq_singleton h]
  simp

/-- Joining a name adds it to the parts. -/
theorem pieces_join (base : String) {name : String} (hname : IsName name) :
  pieces (join base name) = folderPieces base ++ [name]
  := by
  rw [join, not_isAbsolute_of_slash hname.slash, if_neg (by simp)]
  split
  · rename_i hempty
    rw [eq_of_beq hempty, pieces_of_slash hname.slash]
    rfl
  · rename_i hne
    split
    · rename_i hslash
      obtain ⟨front, hfront⟩ := List.getLast?_eq_some_iff.mp (eq_of_beq hslash)
      have hbase := pieces_of_toList_eq hfront
      have hjoin : (base ++ name).toList = front ++ '/' :: name.toList := by
        rw [String.toList_append, hfront]
        simp
      rw [pieces_of_toList_eq hjoin, String.ofList_toList, pieces_of_slash hname.slash]
      congr 1
      rw [folderPieces, hbase]
      have hnil : pieces (String.ofList []) = [""] := rfl
      rw [hnil, if_pos (by simp), List.dropLast_concat]
    · rename_i hslash
      have hjoin : (base ++ "/" ++ name).toList = base.toList ++ '/' :: name.toList := by
        simp
      rw [pieces_of_toList_eq hjoin, String.ofList_toList, String.ofList_toList,
        pieces_of_slash hname.slash, folderPieces, if_neg]
      intro hlast
      rcases of_getLast?_pieces_eq_empty hlast with rfl | hlast
      · simp at hne
      · simp [hlast] at hslash

theorem isAbsolute_join (base : String) {name : String} (hname : IsName name) :
  isAbsolute (join base name) = isAbsolute base
  := by
  rw [join, not_isAbsolute_of_slash hname.slash, if_neg (by simp)]
  split
  · rename_i hempty
    rw [eq_of_beq hempty, not_isAbsolute_of_slash hname.slash]
    rfl
  · rename_i hne
    have hbase : base.toList ≠ [] := by
      intro hnil
      simp [String.toList_eq_nil_iff.mp hnil] at hne
    split
    · rw [isAbsolute, isAbsolute, String.toList_append, List.head?_append_of_ne_nil _ hbase]
    · rw [isAbsolute, isAbsolute, String.toList_append, String.toList_append, List.append_assoc,
        List.head?_append_of_ne_nil _ hbase]

theorem folderPieces_join (base : String) {name : String} (hname : IsName name) :
  folderPieces (join base name) = folderPieces base ++ [name]
  := by
  rw [folderPieces, pieces_join base hname, if_neg]
  rw [List.getLast?_concat]
  intro h
  apply hname.ne_empty (Option.some.inj h)

/-! ### The temporary file beside a file -/

/-- Only short texts have a meaning of their own as parts of paths. -/
theorem isName_of_length {text : String} (hlong : 2 < text.length) (hslash : '/' ∉ text.toList) :
  IsName text
  := by
  have hne {short : String} (hshort : short.length ≤ 2) : text ≠ short := by
    rintro rfl
    omega
  have hempty : text ≠ "" := hne (by decide)
  have hdot : text ≠ "." := hne (by decide)
  have hdots : text ≠ ".." := hne (by decide)
  constructor
  · rw [component?, beq_eq_false_iff_ne.mpr hempty, beq_eq_false_iff_ne.mpr hdot,
      beq_eq_false_iff_ne.mpr hdots]
    rfl
  · apply hslash

theorem IsName.append {name : String} (h : IsName name) {ending : String}
    (hlong : 2 < ending.length) (hslash : '/' ∉ ending.toList) :
  IsName (name ++ ending)
  := by
  apply isName_of_length
  · rw [String.length_append]
    omega
  · rw [String.toList_append, List.mem_append]
    rintro (hname | hending)
    · apply h.slash hname
    · apply hslash hending

/-- Nothing is trimmed from parts that end with a name. -/
theorem trimPieces_concat (front : List String) {name : String} (hname : IsName name) :
  trimPieces (front ++ [name]) = front ++ [name]
  := by
  cases front with
  | nil => rfl
  | cons first rest =>
      rw [List.cons_append, trimPieces, List.reverse_concat, List.dropWhile_cons_of_neg]
      · simp
      · simp [hname.component?_eq]

theorem getLast?_components {path name : String} {front : List String} (hfront : front ≠ [])
    (hpieces : pieces path = front ++ [name]) (hname : IsName name) :
  (components path).getLast? = some (.name name)
  := by
  obtain ⟨first, rest, rfl⟩ := List.exists_cons_of_ne_nil hfront
  rw [components, hpieces, List.cons_append]
  dsimp only
  have hlast : [name].filterMap component? = [.name name] := by
    rw [List.filterMap_cons, hname.component?_eq]
    rfl
  rw [List.filterMap_append, hlast, ← List.append_assoc]
  apply List.getLast?_concat

theorem fileName?_of_pieces {path name : String} {front : List String} (hfront : front ≠ [])
    (hpieces : pieces path = front ++ [name]) (hname : IsName name) :
  fileName? path = some name
  := by
  rw [fileName?, getLast?_components hfront hpieces hname]

section

variable {path folder name : String} {front : List String}
  (hpieces : pieces path = front ++ [folder, name])

include hpieces

theorem pieces_folder :
  pieces ("/".intercalate (front ++ [folder])) = front ++ [folder]
  := by
  apply pieces_intercalate (by simp)
  intro part hpart
  have hmem : part ∈ pieces path := by
    have hparts : pieces path = (front ++ [folder]) ++ [name] := by
      rw [hpieces, List.append_assoc]
      rfl
    rw [hparts]
    apply List.mem_append_left _ hpart
  apply slash_of_mem_pieces hmem

variable (hfolder : IsName folder)

include hfolder

theorem parent?_of_pieces (hname : IsName name) :
  parent? path = some ("/".intercalate (front ++ [folder]))
  := by
  have hparts : pieces path = (front ++ [folder]) ++ [name] := by
    rw [hpieces, List.append_assoc]
    rfl
  obtain ⟨first, rest, hcons⟩ :=
    List.exists_cons_of_ne_nil (List.append_ne_nil_of_right_ne_nil front (List.cons_ne_nil folder []))
  rw [parent?, getLast?_components (by simp) hparts hname]
  dsimp only
  rw [hparts, trimPieces_concat _ hname, List.dropLast_concat, hcons]
  dsimp only
  rw [← hcons, trimPieces_concat _ hfolder, ofPieces, if_neg]
  simp only [Bool.and_eq_true, beq_iff_eq, not_and]
  intro _ hroot
  have hlast := congrArg List.getLast? hroot
  rw [List.getLast?_concat] at hlast
  apply hfolder.ne_empty (Option.some.inj hlast)

theorem folderPieces_folder :
  folderPieces ("/".intercalate (front ++ [folder])) = front ++ [folder]
  := by
  rw [folderPieces, pieces_folder hpieces, if_neg]
  rw [List.getLast?_concat]
  intro h
  apply hfolder.ne_empty (Option.some.inj h)

/-- A path is its file name joined to its folder. -/
theorem join_folder (hname : IsName name) :
  join ("/".intercalate (front ++ [folder])) name = path
  := by
  rw [← intercalate_pieces (join _ name), pieces_join _ hname, folderPieces_folder hpieces hfolder,
    ← intercalate_pieces path, hpieces, List.append_assoc]
  rfl

theorem temporary_of_pieces (hname : IsName name) :
  temporary path = join ("/".intercalate (front ++ [folder])) (name ++ temporaryEnding)
  := by
  have hparts : pieces path = (front ++ [folder]) ++ [name] := by
    rw [hpieces, List.append_assoc]
    rfl
  have hfile := fileName?_of_pieces (by simp) hparts hname
  rw [temporary, withFileName, hfile, parent?_of_pieces hpieces hfolder hname]
  rfl

/-- The temporary file stands beside its file. -/
theorem pieces_temporary (hname : IsName name) :
  pieces (temporary path) = front ++ [folder, name ++ temporaryEnding]
  := by
  have htemporary : IsName (name ++ temporaryEnding) := by
    apply hname.append <;> decide
  rw [temporary_of_pieces hpieces hfolder hname, pieces_join _ htemporary,
    folderPieces_folder hpieces hfolder, List.append_assoc]
  rfl

theorem isAbsolute_temporary (hname : IsName name) :
  isAbsolute (temporary path) = isAbsolute path
  := by
  have htemporary : IsName (name ++ temporaryEnding) := by
    apply hname.append <;> decide
  rw [temporary_of_pieces hpieces hfolder hname, isAbsolute_join _ htemporary,
    ← isAbsolute_join _ hname, join_folder hpieces hfolder hname]

end

end Scrutiny.Path
