import Scrutiny.Proofs.Files.Attempt

/-!
# Places for files

A place is where a file may stand below a folder.  A file that is written as a whole touches its own
names and those of its temporary file, and makes no folders but those on the way to them.  If it
fails, the file is as it was.  Whether it fails depends on what stands in the way, and not on the
bytes.
-/

namespace Scrutiny

/-- A path whose last part is a name does not end with a slash. -/
theorem Path.getLast?_ne_slash {path name : String} {front : List String} {folder : String}
    (hpieces : pieces path = front ++ [folder, name]) (hname : IsName name) :
  path.toList.getLast? ≠ some '/'
  := by
  intro hslash
  obtain ⟨chars, hchars⟩ := List.getLast?_eq_some_iff.mp hslash
  have hchars : path.toList = chars ++ '/' :: [] := hchars
  rw [pieces_of_toList_eq hchars] at hpieces
  have hlast := congrArg List.getLast? hpieces
  have hempty : pieces (String.ofList []) = [""] := rfl
  rw [hempty, List.getLast?_concat, List.getLast?_append] at hlast
  apply hname.ne_empty (Option.some.inj hlast).symm

namespace FileTree

/-- The names of a file, from a folder on: `front`, a folder in it and the name in that folder.
None of them is too long, not even that of the temporary file. -/
structure IsPlace (front : List String) (folder name : String) : Prop where
  isName : ∀ other ∈ front ++ [folder, name], Path.IsName other
  short : ∀ other ∈ front ++ [folder], other.utf8ByteSize ≤ maxName
  short_temporary : (name ++ Path.temporaryEnding).utf8ByteSize ≤ maxName

/-- A folder that can be reached and exists. -/
structure HasFolder (tree : FileTree) (root : String) : Prop where
  sound : tree.Sound
  reaches : tree.Reaches root
  isFolderAt : tree.IsFolderAt (tree.base root)

variable {tree next : FileTree} {root : String} {front : List String} {folder name : String}

theorem HasFolder.of_keeps (h : tree.HasFolder root) (hkeeps : tree.Keeps next) :
  next.HasFolder root
  := by
  use hkeeps.sound, hkeeps.reaches h.reaches
  rw [hkeeps.base_eq]
  apply hkeeps.isFolderAt _ h.isFolderAt

/-- A folder that was made can be reached. -/
theorem hasFolder_of_createFolders (hsound : tree.Sound)
    (h : FileAction.createFolders root tree = (.ok (), next)) :
  next.HasFolder root
  := by
  obtain ⟨hgrows, hfollow, hfolder⟩ := FileAction.grows_of_createFolders hsound h
  rw [← hgrows.here_eq] at hfollow
  rw [← hgrows.toKeeps.namesOf_eq, namesOf_eq_base] at hfolder
  exact ⟨hgrows.sound, reaches_of_follow hfollow, hfolder⟩

section

variable {last : String} (h : tree.HasFolder root) (hname : Path.IsName last)
  (hshort : last.utf8ByteSize ≤ maxName)

include h hname hshort

theorem HasFolder.resolve_join :
  tree.resolve (Path.join root last) = .ok (tree.namesOf (Path.join root last))
  := by
  obtain ⟨hdot, hdots⟩ := hname.ne
  have hnames : tree.namesOf (Path.join root last) = tree.base root ++ [last] :=
    namesOf_of_pieces (Path.pieces_join root hname) (List.forall_mem_singleton.mpr hname)
      (Path.isAbsolute_join root hname)
  rw [resolve_of_pieces (Path.pieces_join root hname) hname, Path.isAbsolute_join root hname,
    follow_append h.reaches, hnames, follow_cons_eq_ok, if_neg hdot, if_neg hdots]
  exact ⟨h.isFolderAt, hshort, rfl⟩

theorem HasFolder.occurs_join :
  tree.occurs (Path.join root last) = .ok (tree.at? (tree.namesOf (Path.join root last))).isSome
  := by
  rw [occurs, find, h.resolve_join hname hshort]
  dsimp only
  cases tree.at? (tree.namesOf (Path.join root last)) <;> rfl

theorem HasFolder.toOption_read_join :
  (tree.read (Path.join root last)).toOption = tree.file? (tree.namesOf (Path.join root last))
  := by
  rw [read, find, h.resolve_join hname hshort, file?]
  dsimp only
  rcases tree.at? (tree.namesOf (Path.join root last)) with - | bytes | entries <;> rfl

/-- A file that was removed, if it was there, is not there any more, and all others are. -/
theorem HasFolder.of_removeIfThere {removed : Bool}
    (hremove : FileAction.removeIfThere (Path.join root last) tree = (.ok removed, next)) :
  tree.Keeps next ∧ next.file? (tree.namesOf (Path.join root last)) = none
    ∧ ∀ names, names ≠ tree.namesOf (Path.join root last) → next.file? names = tree.file? names
  := by
  rcases FileAction.of_removeIfThere h.sound hremove with ⟨-, -, hsets⟩ | ⟨-, rfl, hmissing⟩
  · exact ⟨hsets.toKeeps, hsets.file?_self, hsets.file?_ne⟩
  · refine ⟨.refl h.sound, ?_, fun _ _ => rfl⟩
    rw [← h.toOption_read_join hname hshort]
    cases hread : tree.read (Path.join root last) with
    | error e => rfl
    | ok bytes => cases hmissing bytes hread

end

/-- The names of a file are followed from a folder on if the last folder on the way exists. -/
theorem follow_of_isFolderAt {names others : List String} {last : String}
    (hnames : ∀ other ∈ others ++ [last], Path.IsName other ∧ other.utf8ByteSize ≤ maxName)
    (hfolder : tree.IsFolderAt (names ++ others)) :
  tree.follow names (others ++ [last]) = .ok (names ++ (others ++ [last]))
  := by
  induction others generalizing names with
  | nil =>
      obtain ⟨hname, hshort⟩ := hnames last (by simp)
      obtain ⟨hdot, hdots⟩ := hname.ne
      rw [List.append_nil] at hfolder
      rw [List.nil_append, follow_cons_eq_ok, if_neg hdot, if_neg hdots]
      use hfolder, hshort
      rw [follow]
  | cons first rest ih =>
      obtain ⟨hname, hshort⟩ := hnames first (by simp)
      obtain ⟨hdot, hdots⟩ := hname.ne
      have hrest : names ++ [first] ++ rest = names ++ first :: rest := by simp
      have hfolder' : tree.IsFolderAt (names ++ [first] ++ rest) := by rwa [hrest]
      have hfirst := ih (fun other hother => hnames other (List.mem_cons_of_mem _ hother)) hfolder'
      rw [List.cons_append, follow_cons_eq_ok, if_neg hdot, if_neg hdots]
      use hfolder.of_append, hshort
      rw [hfirst, ← List.append_assoc, hrest]
      simp

/-- The path of a place. -/
def placePath (root : String) (front : List String) (folder name : String) : String :=
  (front ++ [folder, name]).foldl Path.join root

/-- The names that are touched when a file is written as a whole. -/
def placeNames (base front : List String) (folder name : String) : Set (List String) :=
  {base ++ (front ++ [folder, name]), base ++ (front ++ [folder, name ++ Path.temporaryEnding])}

/-- Nothing stands where a file is to be written: no file on the way to it, and no folder in its
place or in that of its temporary file. -/
structure IsFree (tree : FileTree) (base front : List String) (folder name : String) : Prop where
  way : ∀ names, names <+: base ++ front ++ [folder] → tree.file? names = none
  target : ¬ tree.IsFolderAt (base ++ (front ++ [folder, name]))
  temporary : ¬ tree.IsFolderAt (base ++ (front ++ [folder, name ++ Path.temporaryEnding]))

/-- A file can be written after some files were touched that are not on the way to it. -/
theorem IsFree.of_touches {base : List String} {touched : Set (List String)}
    (h : tree.IsFree base front folder name) (htouches : Touches touched tree next)
    (hway : ∀ other ∈ touched, ¬ other <+: base ++ front ++ [folder])
    (hbelow : ∀ other ∈ touched, ∀ last,
      base ++ (front ++ [folder, last]) <+: other → base ++ (front ++ [folder, last]) = other) :
  next.IsFree base front folder name
  := by
  have hfolder (last : String) (hold : ¬ tree.IsFolderAt (base ++ (front ++ [folder, last]))) :
      ¬ next.IsFolderAt (base ++ (front ++ [folder, last])) := by
    intro hnew
    rcases htouches.isFolderAt_of _ hnew with hnew | ⟨other, hother, hprefix, hne⟩
    · apply hold hnew
    · apply hne (hbelow other hother last hprefix)
  constructor
  · intro names hnames
    rw [htouches.file?_eq, h.way names hnames]
    intro hmem
    apply hway names hmem hnames
  · apply hfolder name h.target
  · apply hfolder _ h.temporary

/-- A file that can be written after some files were touched could be written before. -/
theorem IsFree.of_touches_next {base : List String} {touched : Set (List String)}
    (h : next.IsFree base front folder name) (htouches : Touches touched tree next)
    (hway : ∀ other ∈ touched, ¬ other <+: base ++ front ++ [folder]) :
  tree.IsFree base front folder name
  := by
  constructor
  · intro names hnames
    rw [← htouches.file?_eq, h.way names hnames]
    intro hmem
    apply hway names hmem hnames
  · intro hfolder
    apply h.target (htouches.isFolderAt _ hfolder)
  · intro hfolder
    apply h.temporary (htouches.isFolderAt _ hfolder)

/-- The files of a place have as many names as any other file beside them. -/
theorem length_of_mem_placeNames {base other : List String}
    (h : other ∈ placeNames base front folder name) :
  other.length = (base ++ front ++ [folder]).length + 1
  := by
  rcases h with rfl | rfl <;> simp <;> omega

theorem IsFree.of_touches_placeNames {base : List String}
    (h : tree.IsFree base front folder name)
    (htouches : Touches (placeNames base front folder name) tree next) :
  next.IsFree base front folder name
  := by
  apply h.of_touches htouches
  · intro other hother hprefix
    have := hprefix.length_le
    have := length_of_mem_placeNames hother
    omega
  · intro other hother last hprefix
    apply hprefix.eq_of_length
    rw [length_of_mem_placeNames hother]
    simp
    omega

/-- The temporary file is another one. -/
theorem temporary_ne (base front : List String) (folder name : String) :
  base ++ (front ++ [folder, name ++ Path.temporaryEnding]) ≠ base ++ (front ++ [folder, name])
  := by
  intro heq
  have hlists := List.append_cancel_left (List.append_cancel_left heq)
  simp only [List.cons.injEq, true_and, and_true] at hlists
  have hlength := congrArg String.length hlists
  have hending : Path.temporaryEnding.length = 4 := by decide
  rw [String.length_append, hending] at hlength
  omega

namespace IsPlace

section

variable (h : IsPlace front folder name)

include h

theorem isName_folder :
  Path.IsName folder
  := h.isName folder (by simp)

theorem isName_name :
  Path.IsName name
  := h.isName name (by simp)

theorem pieces_placePath (root : String) :
  Path.pieces (placePath root front folder name)
    = (Path.folderPieces root ++ front) ++ [folder, name]
  := by
  rw [placePath, Path.pieces_foldl_join root (by simp) h.isName, List.append_assoc]

theorem namesOf_placePath (tree : FileTree) (root : String) :
  tree.namesOf (placePath root front folder name) = tree.base root ++ (front ++ [folder, name])
  := namesOf_foldl_join (by simp) h.isName

theorem namesOf_temporary_placePath (tree : FileTree) (root : String) :
  tree.namesOf (Path.temporary (placePath root front folder name))
    = tree.base root ++ (front ++ [folder, name ++ Path.temporaryEnding])
  := namesOf_temporary_foldl_join h.isName

/-- The folders of a place are made below a folder that exists. -/
theorem exists_createFolders_eq (hroot : tree.HasFolder root) :
  ∃ parent, Path.parent? (placePath root front folder name) = some parent ∧ parent ≠ ""
    ∧ FileAction.createFolders parent tree
      = FileAction.makeFolders (tree.base root) ((front ++ [folder]).map .name) tree
  := by
  have hpieces := h.pieces_placePath root
  have hparent := Path.pieces_folder hpieces
  use "/".intercalate (Path.folderPieces root ++ front ++ [folder])
  use Path.parent?_of_pieces hpieces h.isName_folder h.isName_name
  constructor
  · intro hempty
    rw [hempty] at hparent
    have hlast := congrArg List.getLast? hparent
    rw [List.getLast?_concat] at hlast
    apply h.isName_folder.ne_empty (Option.some.inj hlast).symm
  · have hnames : (front ++ [folder]).filterMap Path.component?
        = (front ++ [folder]).map .name := by
      apply List.filterMap_eq_map_iff_forall_eq_some.mpr
      intro other hother
      apply (h.isName other _).component?_eq
      simp only [List.mem_append, List.mem_cons, List.not_mem_nil, or_false] at hother ⊢
      rcases hother with hother | rfl
      · left
        apply hother
      · right
        left
        rfl
    have habsolute : Path.isAbsolute ("/".intercalate (Path.folderPieces root ++ front ++ [folder]))
        = Path.isAbsolute root := by
      rw [← Path.isAbsolute_join _ h.isName_name, Path.join_folder hpieces h.isName_folder h.isName_name]
      apply Path.isAbsolute_foldl_join root h.isName
    have hcreate (path : String) : FileAction.createFolders path tree
        = FileAction.makeFolders tree.here (Path.components path) tree := rfl
    rw [hcreate, FileAction.makeFolders_components, habsolute, hparent, List.append_assoc,
      List.filterMap_append, FileAction.makeFolders_of_follow hroot.reaches hroot.isFolderAt, hnames]

/-- Removing the temporary file leaves all others. -/
theorem touches_remove_temporary (hroot : tree.HasFolder root) :
  let last := (FileAction.remove (Path.temporary (placePath root front folder name)) tree).2
  Touches (placeNames (tree.base root) front folder name) tree last
    ∧ last.file? (tree.base root ++ (front ++ [folder, name]))
      = tree.file? (tree.base root ++ (front ++ [folder, name]))
  := by
  rcases FileAction.remove_eq_or_sets hroot.sound
    (Path.temporary (placePath root front folder name)) with heq | hsets
  · dsimp only
    rw [heq]
    use .refl hroot.sound _
  · rw [h.namesOf_temporary_placePath] at hsets
    use hsets.touches (.inr rfl)
    apply hsets.file?_ne _ (temporary_ne (tree.base root) front folder name).symm

/-- A file that is written as a whole touches nothing but its place, and is as it was if that
fails. -/
theorem touches_of_writeAtomic (hroot : tree.HasFolder root) {bytes : List UInt8}
    {result : Except FileError Unit}
    (hwrite : FileAction.writeAtomic (placePath root front folder name) bytes tree = (result, next)) :
  Touches (placeNames (tree.base root) front folder name) tree next
    ∧ ∀ e, result = .error e → next.file? (tree.base root ++ (front ++ [folder, name]))
      = tree.file? (tree.base root ++ (front ++ [folder, name]))
  := by
  obtain ⟨parent, hparent, hne, hcreate⟩ := h.exists_createFolders_eq hroot
  have htarget : tree.base root ++ (front ++ [folder]) ++ [name]
      ∈ placeNames (tree.base root) front folder name := by
    left
    simp
  rw [FileAction.writeAtomic, hparent] at hwrite
  dsimp only at hwrite
  rw [if_pos (bne_iff_ne.mpr hne)] at hwrite
  rcases FileAction.of_bind hwrite with ⟨e, hfolders, rfl⟩ | ⟨_, ready, hfolders, hwrite⟩
  · rw [hcreate] at hfolders
    use FileAction.touches_of_makeFolders hroot.sound hroot.isFolderAt htarget hfolders
    intro _ _
    have hgrows := FileAction.grows_makeFolders hroot.sound hroot.isFolderAt
      ((front ++ [folder]).map .name)
    rw [hfolders] at hgrows
    apply hgrows.file?_eq
  have hgrows := (FileAction.grows_of_createFolders hroot.sound hfolders).1
  rw [hcreate] at hfolders
  have htouches := FileAction.touches_of_makeFolders hroot.sound hroot.isFolderAt htarget hfolders
  have hready := hroot.of_keeps hgrows.toKeeps
  have hbase := hgrows.base_eq root
  rcases FileAction.of_bind hwrite with ⟨e, hfill, rfl⟩ | ⟨_, written, hfill, hmove⟩
  · obtain ⟨middle, hfail, rfl⟩ := FileAction.of_orRemove_eq_error hfill
    obtain rfl := FileAction.eq_of_write_eq_error hfail
    obtain ⟨hremove, hsame⟩ := h.touches_remove_temporary hready
    rw [hbase] at hremove hsame
    use htouches.trans hremove
    intro _ _
    rw [hsame, hgrows.file?_eq]
  · obtain ⟨-, hwritten⟩ := FileAction.sets_of_write hready.sound (FileAction.of_orRemove_eq_ok hfill)
    rw [h.namesOf_temporary_placePath, hbase] at hwritten
    have hsame := hwritten.file?_ne _ (temporary_ne (tree.base root) front folder name).symm
    have hbase' := hwritten.base_eq root
    have hfilled := htouches.trans (hwritten.touches (.inr rfl))
    cases result with
    | ok u =>
        obtain ⟨found, moved, -, -, htaken, hput⟩ :=
          FileAction.exists_sets_of_move hwritten.sound (FileAction.of_orRemove_eq_ok hmove)
        rw [h.namesOf_temporary_placePath, hbase', hbase] at htaken
        rw [h.namesOf_placePath, hbase', hbase] at hput
        constructor
        · apply hfilled.trans
          apply Touches.trans (htaken.touches (.inr rfl)) (hput.touches (.inl rfl))
        · intro e he
          cases he
    | error e =>
        obtain ⟨middle, hfail, rfl⟩ := FileAction.of_orRemove_eq_error hmove
        obtain rfl := FileAction.eq_of_move_eq_error hfail
        obtain ⟨hremove, hsame'⟩ := h.touches_remove_temporary (hready.of_keeps hwritten.toKeeps)
        rw [hbase', hbase] at hremove hsame'
        use hfilled.trans hremove
        intro _ _
        rw [hsame', hsame, hgrows.file?_eq]

/-- The path of a file leads to it if its folder exists. -/
theorem resolve_eq (hroot : tree.HasFolder root) {path last : String}
    (hpieces : Path.pieces path = (Path.folderPieces root ++ front) ++ [folder, last])
    (habsolute : Path.isAbsolute path = Path.isAbsolute root) (hlast : Path.IsName last)
    (hshort : last.utf8ByteSize ≤ maxName)
    (hfolder : tree.IsFolderAt (tree.base root ++ (front ++ [folder]))) :
  tree.resolve path = .ok (tree.base root ++ (front ++ [folder, last]))
  := by
  have hnames : ∀ other ∈ front ++ [folder] ++ [last],
      Path.IsName other ∧ other.utf8ByteSize ≤ maxName := by
    intro other hother
    rcases List.mem_append.mp hother with hother | hother
    · constructor
      · apply h.isName
        simp only [List.mem_append, List.mem_cons, List.not_mem_nil, or_false] at hother ⊢
        rcases hother with hother | rfl
        · left
          apply hother
        · right
          left
          rfl
      · apply h.short other hother
    · rw [List.mem_singleton.mp hother]
      use hlast
  have hfollow := follow_of_isFolderAt hnames hfolder
  have hlist : front ++ [folder, last] = front ++ [folder] ++ [last] := by simp
  rw [resolve, if_neg, habsolute, hpieces, List.append_assoc, follow_append hroot.reaches, hlist]
  · apply hfollow
  · intro hempty
    rw [eq_of_beq hempty] at hpieces
    have hmem : last ∈ Path.pieces "" := by
      rw [hpieces]
      simp
    apply hlast.ne_empty (List.mem_singleton.mp hmem)

/-- A file can be written as a whole if nothing stands where it is to be written. -/
theorem exists_writeAtomic (hroot : tree.HasFolder root)
    (hfree : tree.IsFree (tree.base root) front folder name) (bytes : List UInt8) :
  ∃ next, FileAction.writeAtomic (placePath root front folder name) bytes tree = (.ok (), next)
  := by
  obtain ⟨parent, hparent, hne, hcreate⟩ := h.exists_createFolders_eq hroot
  have hpieces := h.pieces_placePath root
  have habsolute : Path.isAbsolute (placePath root front folder name) = Path.isAbsolute root :=
    Path.isAbsolute_foldl_join root h.isName
  have htemporary : Path.IsName (name ++ Path.temporaryEnding) := by
    apply h.isName_name.append <;> decide
  have hshort : name.utf8ByteSize ≤ maxName := by
    have := h.short_temporary
    rw [String.utf8ByteSize_append] at this
    omega
  have hplace : tree.base root ++ (front ++ [folder]) ++ [name]
      ∈ placeNames (tree.base root) front folder name := by
    left
    simp
  have hway : ∀ names, names <+: tree.base root ++ (front ++ [folder]) → tree.file? names = none := by
    intro names hnames
    apply hfree.way
    rwa [List.append_assoc]
  -- The folders are made,
  obtain ⟨ready, hmake, hfolder⟩ :=
    FileAction.exists_makeFolders hroot.sound hroot.isFolderAt h.short hway
  have htouches := FileAction.touches_of_makeFolders hroot.sound hroot.isFolderAt hplace hmake
  have hgrows := (FileAction.grows_of_createFolders hroot.sound (hcreate.trans hmake)).1
  have hready := hroot.of_keeps hgrows.toKeeps
  have hbase := hgrows.base_eq root
  have hfree' := hfree.of_touches_placeNames htouches
  rw [← hbase] at hfolder hfree'
  -- then the temporary file is written,
  have hstart := h.resolve_eq hready (Path.pieces_temporary hpieces h.isName_folder h.isName_name)
    (by rw [Path.isAbsolute_temporary hpieces h.isName_folder h.isName_name, habsolute]) htemporary
    h.short_temporary hfolder
  obtain ⟨written, hfill⟩ := FileAction.exists_write hstart hfree'.temporary bytes
  obtain ⟨-, hwritten⟩ := FileAction.sets_of_write hready.sound hfill
  rw [h.namesOf_temporary_placePath] at hwritten
  have hready' := hready.of_keeps hwritten.toKeeps
  -- and moved to its place.
  have hgoal := h.resolve_eq hready' hpieces habsolute h.isName_name hshort
    (by rw [hwritten.base_eq]; apply hwritten.isFolderAt _ hfolder)
  rw [hwritten.base_eq] at hgoal
  obtain ⟨next, hmove⟩ := FileAction.exists_move (resolve_of_keeps hwritten.toKeeps hstart)
    hwritten.file?_self (Path.getLast?_ne_slash hpieces h.isName_name) hgoal
    fun hnew => hfree'.target (hwritten.isFolderAt_of _ hnew)
  use next
  rw [FileAction.writeAtomic, hparent]
  dsimp only
  rw [if_pos (bne_iff_ne.mpr hne), FileAction.bind_of_ok _ (hcreate.trans hmake),
    FileAction.bind_of_ok _ (FileAction.orRemove_of_ok hfill), FileAction.orRemove_of_ok hmove]

/-- Nothing stands where a file was written as a whole. -/
theorem isFree_of_writeAtomic (hroot : tree.HasFolder root) {bytes : List UInt8}
    (hwrite : FileAction.writeAtomic (placePath root front folder name) bytes tree = (.ok (), next)) :
  tree.IsFree (tree.base root) front folder name
  := by
  obtain ⟨ready, written, hgrows, hfill, -⟩ := FileAction.exists_of_writeAtomic hroot.sound hwrite
  obtain ⟨-, hwritten⟩ := FileAction.sets_of_write hgrows.sound hfill
  have hreplaces := FileAction.replaces_of_writeAtomic hroot.sound hwrite
  have hfile : next.file? (tree.base root ++ (front ++ [folder, name])) = some bytes := by
    obtain ⟨names, hresolve, hbytes⟩ := read_eq_ok_iff.mp hreplaces.read_eq
    obtain ⟨rfl, -⟩ := of_resolve_eq_ok hreplaces.sound hresolve
    rw [hreplaces.namesOf_eq, h.namesOf_placePath] at hbytes
    apply hbytes
  constructor
  · rintro names ⟨others, hothers⟩
    have htarget : tree.base root ++ (front ++ [folder, name]) = names ++ (others ++ [name]) := by
      rw [← List.append_assoc names, hothers]
      simp
    by_contra hsome
    obtain ⟨old, hold⟩ := Option.ne_none_iff_exists'.mp hsome
    have hlength : names.length ≤ (tree.base root ++ front ++ [folder]).length := by
      rw [← hothers, List.length_append]
      omega
    -- The way leads through folders, so there is no file on it, neither now nor before.
    have hfolder : next.IsFolderAt names := by
      have hothers : next.file? (names ++ (others ++ [name])) = some bytes := by
        rw [← htarget, hfile]
      apply isFolderAt_of_file? (by simp) hothers
    have hsame := hreplaces.file?_eq names
    rw [h.namesOf_placePath, h.namesOf_temporary_placePath] at hsame
    rw [← hsame] at hold
    · apply not_isFolderAt_of_file? hold hfolder
    · intro heq
      rw [heq] at hlength
      simp at hlength
    · intro heq
      rw [heq] at hlength
      simp at hlength
  · intro hfolder
    apply not_isFolderAt_of_file? hfile (hreplaces.isFolderAt _ hfolder)
  · intro hfolder
    have hfilled := hwritten.file?_self
    rw [h.namesOf_temporary_placePath, hgrows.base_eq] at hfilled
    apply not_isFolderAt_of_file? hfilled
    apply hwritten.isFolderAt _ (hgrows.isFolderAt _ hfolder)

end

end IsPlace

end FileTree

end Scrutiny
