import Scrutiny.Proofs.Files.Below

/-!
# File names

The last name that a path leads to is its file name.  The temporary file of a path has the same file
name with another ending.
-/

namespace Scrutiny

namespace Path

/-- Parts with a name at their end lead to something with this name. -/
theorem getLast?_lead {names pieces : List String} {name : String}
    (h : (pieces.filterMap component?).getLast? = some (.name name)) :
  (lead names pieces).getLast? = some name
  := by
  induction pieces using List.reverseRecOn with
  | nil => cases h
  | append_singleton front piece ih =>
      rw [List.filterMap_append] at h
      rw [lead_append, lead]
      split_ifs with hdot hdots
      · have hpiece : component? piece = none := by rw [component?, if_pos hdot]
        rw [List.filterMap_cons_none hpiece, List.filterMap_nil, List.append_nil] at h
        apply ih h
      · have hpiece : component? piece = some .up := by rw [component?, if_neg hdot, if_pos hdots]
        rw [List.filterMap_cons_some hpiece, List.filterMap_nil, List.getLast?_concat] at h
        cases h
      · have hpiece : component? piece = some (.name piece) := by
          rw [component?, if_neg hdot, if_neg hdots]
        rw [List.filterMap_cons_some hpiece, List.filterMap_nil, List.getLast?_concat] at h
        rw [lead, List.getLast?_concat, (Component.name.inj (Option.some.inj h))]

theorem getLast?_filterMap_pieces {path name : String} (h : fileName? path = some name) :
  ((pieces path).filterMap component?).getLast? = some (.name name)
  := by
  have hlast : (components path).getLast? = some (.name name) := by
    rw [fileName?] at h
    split at h
    · rename_i last hlast
      rw [hlast, Option.some.inj h]
    · cases h
  rw [components] at hlast
  split at hlast
  · cases hlast
  · rename_i first rest hpieces
    rw [hpieces]
    -- The first part is the last component only if it is a name itself.
    have hstart {start : List Component} (hnot : start.getLast? ≠ some (.name name))
        (h : (start ++ rest.filterMap component?).getLast? = some (.name name)) :
        ((first :: rest).filterMap component?).getLast? = some (.name name) := by
      rw [List.getLast?_append] at h
      have hrest : (rest.filterMap component?).getLast? = some (.name name) := by
        cases hrest : (rest.filterMap component?).getLast? with
        | none =>
            rw [hrest] at h
            cases hnot h
        | some last =>
            rw [hrest] at h
            exact h
      rw [List.filterMap_cons]
      split
      · exact hrest
      · rw [List.getLast?_cons, hrest]
        rfl
    dsimp only at hlast
    split at hlast
    · exact hstart (by simp) hlast
    · split at hlast
      · exact hstart (by simp) hlast
      · rw [List.filterMap_cons]
        cases hfirst : component? first with
        | none =>
            rw [hfirst] at hlast
            exact hlast
        | some component =>
            rw [hfirst] at hlast
            exact hlast

/-- The last part of a path that is made of names is the last name. -/
theorem exists_pieces_intercalate (front : List String) {name : String} (h : '/' ∉ name.toList) :
  ∃ others, pieces ("/".intercalate (front ++ [name])) = others ++ [name]
  := by
  induction front with
  | nil => exact ⟨[], pieces_of_slash h⟩
  | cons first rest ih =>
      obtain ⟨others, hothers⟩ := ih
      have hlist : ("/".intercalate (first :: rest ++ [name])).toList
          = first.toList ++ '/' :: ("/".intercalate (rest ++ [name])).toList := by
        rw [List.cons_append, String.intercalate_cons_of_ne_nil (by simp)]
        simp
      use pieces first ++ others
      rw [pieces_of_toList_eq hlist, String.ofList_toList, String.ofList_toList, hothers,
        List.append_assoc]

/-- The file name of an absolute path that is made of names is the last name. -/
theorem fileName?_of_names (front : List String) {name : String} (hname : IsName name) :
  fileName? ("/" ++ "/".intercalate (front ++ [name])) = some name
  := by
  obtain ⟨others, hothers⟩ := exists_pieces_intercalate front hname.slash
  have hlist : ("/" ++ "/".intercalate (front ++ [name])).toList
      = [] ++ '/' :: ("/".intercalate (front ++ [name])).toList := by
    simp
  have hpieces := pieces_of_toList_eq hlist
  rw [String.ofList_toList, hothers, ← List.append_assoc] at hpieces
  apply fileName?_of_pieces _ hpieces hname
  apply List.append_ne_nil_of_left_ne_nil
  exact List.cons_ne_nil "" []

theorem snd_splitExtension {name : String} {stem extension : List Char}
    (hname : name.toList = stem ++ '.' :: extension) (hstem : stem ≠ []) (hextension : extension ≠ [])
    (hdot : '.' ∉ extension) :
  (splitExtension name).2 = some (String.ofList extension)
  := by
  have hreverse : name.toList.reverse = extension.reverse ++ '.' :: stem.reverse := by
    rw [hname, List.reverse_append, List.reverse_cons, List.append_assoc]
    rfl
  have htake : name.toList.reverse.takeWhile (· != '.') = extension.reverse := by
    rw [hreverse, List.takeWhile_append_of_pos, List.takeWhile_cons_of_neg (by simp), List.append_nil]
    intro c hc
    apply bne_iff_ne.mpr
    rintro rfl
    apply hdot (List.mem_reverse.mp hc)
  have hdots : (name == "..") = false := by
    apply beq_eq_false_iff_ne.mpr
    rintro rfl
    obtain ⟨first, rest, rfl⟩ := List.exists_cons_of_ne_nil hstem
    have hlist : "..".toList = ['.', '.'] := rfl
    rw [hlist, List.cons_append] at hname
    have hlength := congrArg List.length hname
    have hpos := List.length_pos_of_ne_nil hextension
    simp only [List.length_cons, List.length_append, List.length_nil] at hlength
    omega
  rw [splitExtension, htake, hreverse, List.drop_left]
  dsimp only
  rw [hdots, Bool.or_false, List.isEmpty_reverse, if_neg (List.isEmpty_iff.not.mpr hstem),
    List.reverse_reverse, List.reverse_reverse]

/-- A file name is a name. -/
theorem isName_of_fileName? {path name : String} (h : fileName? path = some name) :
  IsName name
  := by
  have hmem := List.mem_of_getLast? (getLast?_filterMap_pieces h)
  obtain ⟨piece, hpiece, hcomponent⟩ := List.mem_filterMap.mp hmem
  have hname : component? piece = some (.name piece) := by
    rw [component?] at hcomponent ⊢
    split_ifs at hcomponent ⊢
    · cases hcomponent
    · rfl
  obtain rfl := Component.name.inj (Option.some.inj (hname.symm.trans hcomponent))
  use hname
  apply slash_of_mem_pieces hpiece

/-- The file name of a name that is joined to a path. -/
theorem fileName?_join (base : String) {name : String} (hname : IsName name) :
  fileName? (join base name) = some name
  := by
  have hpieces := pieces_join base hname
  by_cases hfront : folderPieces base = []
  · rw [hfront, List.nil_append] at hpieces
    have hjoin : join base name = name := by
      rw [← intercalate_pieces (join base name), hpieces, String.intercalate_singleton]
    have hdot : (name == ".") = false := by
      apply beq_eq_false_iff_ne.mpr
      rintro rfl
      cases hname.component?_eq
    rw [fileName?, components, hpieces, hjoin]
    dsimp only
    rw [not_isAbsolute_of_slash hname.slash, if_neg Bool.false_ne_true, hdot,
      if_neg Bool.false_ne_true, hname.component?_eq]
    rfl
  · apply fileName?_of_pieces hfront hpieces hname

end Path

namespace FileTree

open Scrutiny.Path

variable {tree : FileTree} {path : String}

theorem getLast?_namesOf (tree : FileTree) {name : String} (h : Path.fileName? path = some name) :
  (tree.namesOf path).getLast? = some name
  := Path.getLast?_lead (Path.getLast?_filterMap_pieces h)

/-- The last of the names of a temporary file. -/
theorem getLast?_namesOf_temporary (tree : FileTree) {name : String} (h : fileName? path = some name) :
  (tree.namesOf (temporary path)).getLast? = some (name ++ temporaryEnding)
  := by
  apply getLast?_namesOf
  rw [temporary, withFileName, h]
  apply fileName?_join
  apply (isName_of_fileName? h).append <;> decide

theorem namesOf_temporary_ne (tree : FileTree) {name : String} (h : fileName? path = some name) :
  tree.namesOf (temporary path) ≠ tree.namesOf path
  := by
  intro heq
  have hlast := tree.getLast?_namesOf_temporary h
  rw [heq, tree.getLast?_namesOf h] at hlast
  have hlength := congrArg String.length (Option.some.inj hlast)
  rw [String.length_append] at hlength
  have hending : temporaryEnding.length = 4 := rfl
  omega

/-- The absolute path of what exists is made of the names that lead to it. -/
theorem canonical_eq_ok_iff {file : String} :
  tree.canonical path = .ok file
    ↔ ∃ names, tree.resolve path = .ok names ∧ (tree.at? names).isSome
      ∧ "/" ++ "/".intercalate names = file
  := by
  rw [canonical, find]
  cases tree.resolve path with
  | error e => simp
  | ok names =>
      dsimp only
      cases hnode : tree.at? names with
      | none => simp [hnode]
      | some node => simp [hnode, Except.map]

theorem isFolder_iff :
  tree.isFolder path ↔ ∃ names entries, tree.resolve path = .ok names
    ∧ tree.at? names = some (.folder entries)
  := by
  rw [isFolder, find]
  cases tree.resolve path with
  | error e => simp
  | ok names =>
      simp only [Except.ok.injEq, exists_and_left, exists_eq_left']
      cases tree.at? names with
      | none => simp
      | some node => cases node <;> simp

end FileTree

end Scrutiny
