import Scrutiny.Proofs.Files.Attempt
import Scrutiny.Proofs.Files.Names
import Scrutiny.Proofs.Files.Spelling

/-!
# Writing as a whole or not at all

A file that is written as a whole has its new bytes if the write succeeds.  If it fails, wherever in
the folders that are made, the temporary file or its move, all files are as they were, the temporary
file is gone, and nothing is new but empty folders on the way.
-/

namespace Scrutiny

open Scrutiny.Path FileAction

/-! ### The temporary file of any path -/

namespace Path

theorem isName_temporaryEnding :
  IsName temporaryEnding
  := ⟨by decide, by decide⟩

theorem pieces_eq_folderPieces (path : String) :
  pieces path = folderPieces path ∨ pieces path = folderPieces path ++ [""]
  := by
  rw [folderPieces]
  split_ifs with hlast
  · right
    obtain ⟨front, hfront⟩ := List.getLast?_eq_some_iff.mp hlast
    rw [hfront, List.dropLast_concat]
  · left
    rfl

/-- The temporary file of a path stands below the folder of the path. -/
theorem exists_pieces_temporary {path folder : String} (h : parent? path = some folder)
    (hfolder : folder ≠ "") :
  ∃ front piece rest, pieces (temporary path) = front ++ piece :: rest
    ∧ (pieces folder = front ∨ pieces folder = front ++ [""])
    ∧ isAbsolute folder = isAbsolute (temporary path)
  := by
  rw [temporary, withFileName]
  cases hname : fileName? path with
  | some name =>
      have htemporary : IsName (name ++ temporaryEnding) := by
        apply (isName_of_fileName? hname).append <;> decide
      rw [h]
      use folderPieces folder, name ++ temporaryEnding, []
      exact ⟨pieces_join folder htemporary, pieces_eq_folderPieces folder,
        (isAbsolute_join folder htemporary).symm⟩
  | none =>
      have hending : ((none : Option String).getD "") ++ temporaryEnding = temporaryEnding := rfl
      obtain ⟨front, piece, rest, hpieces, hcases, habsolute⟩ := exists_pieces_of_parent? h hfolder
      dsimp only
      rw [hending, pieces_join path isName_temporaryEnding,
        isAbsolute_join path isName_temporaryEnding]
      rcases pieces_eq_folderPieces path with hsame | hslash
      · use front, piece, rest ++ [temporaryEnding]
        rw [← hsame, hpieces]
        exact ⟨by simp, hcases, habsolute⟩
      · -- The empty part at the end of the path is the first or a later one of those after the front.
        rw [hslash] at hpieces
        rcases List.eq_nil_or_concat' rest with rfl | ⟨others, last, rfl⟩
        · obtain ⟨hfront, -⟩ := List.append_inj' hpieces rfl
          use front, temporaryEnding, []
          rw [hfront]
          exact ⟨rfl, hcases, habsolute⟩
        · rw [← List.cons_append, ← List.append_assoc] at hpieces
          obtain ⟨hfront, -⟩ := List.append_inj' hpieces rfl
          use front, piece, others ++ [temporaryEnding]
          rw [hfront]
          exact ⟨by simp, hcases, habsolute⟩

end Path

namespace FileTree

variable {tree next last : FileTree} {path : String} {bytes : List UInt8}

/-- A path and its temporary file never lead to the same place. -/
theorem namesOf_temporary_ne_self (tree : FileTree) (path : String) :
  tree.namesOf (temporary path) ≠ tree.namesOf path
  := by
  cases hname : fileName? path with
  | some name => apply tree.namesOf_temporary_ne hname
  | none =>
      have htemporary : temporary path = join path temporaryEnding := by
        rw [temporary, withFileName, hname]
        rfl
      have hnames : ∀ name ∈ [temporaryEnding], IsName name := by
        simp [isName_temporaryEnding]
      rw [htemporary, namesOf_of_pieces (pieces_join path isName_temporaryEnding) hnames
        (isAbsolute_join path isName_temporaryEnding), namesOf_eq_base]
      simp

/-! ### New folders -/

theorem Sound.isFolderAt_start (h : tree.Sound) (path : String) :
  tree.IsFolderAt (if isAbsolute path then [] else tree.here)
  := by
  split
  · apply h.root
  · apply h.here

/-- One of the folders that a path leads through, or the one that it leads to. -/
def IsOnWay (tree : FileTree) (path : String) (names : List String) : Prop :=
  ∃ front, front <+: pieces path
    ∧ names = lead (if isAbsolute path then [] else tree.here) front

/-- One of the folders on the way to the folder of a path. -/
def IsAbove (tree : FileTree) (path : String) (names : List String) : Prop :=
  ∃ folder, parent? path = some folder ∧ tree.IsOnWay folder names

theorem Keeps.isAbove_iff (h : tree.Keeps next) {names : List String} :
  next.IsAbove path names ↔ tree.IsAbove path names
  := by
  rw [IsAbove, IsAbove]
  simp only [IsOnWay, h.here_eq]

end FileTree

namespace FileAction

open FileTree

variable {tree next ready : FileTree} {path : String} {bytes : List UInt8}

theorem createFolders_eq (folder : String) (tree : FileTree) :
  createFolders folder tree
    = makeFolders (if isAbsolute folder then [] else tree.here)
      ((pieces folder).filterMap component?) tree
  := by
  rw [← makeFolders_components]
  rfl

/-- All folders that are made are on the way, even if making them stops. -/
theorem exists_prefix_of_makeFolders (hsound : tree.Sound) {names : List String}
    (hnames : tree.IsFolderAt names) (pieces : List String) {others : List String}
    (h : (makeFolders names (pieces.filterMap component?) tree).2.IsFolderAt others) :
  tree.IsFolderAt others ∨ ∃ front, front <+: pieces ∧ others = lead names front
  := by
  induction pieces generalizing names tree with
  | nil =>
      left
      apply h
  | cons piece rest ih =>
      -- What is on the way from where the first part leads is on the way from here.
      have hlater {names' : List String}
          (hfirst : ∀ front, lead names (piece :: front) = lead names' front)
          (h : tree.IsFolderAt others ∨ ∃ front, front <+: rest ∧ others = lead names' front) :
          tree.IsFolderAt others ∨ ∃ front, front <+: piece :: rest ∧ others = lead names front := by
        rcases h with hold | ⟨front, hfront, rfl⟩
        · left
          apply hold
        · right
          use piece :: front, List.cons_prefix_cons.mpr ⟨rfl, hfront⟩, (hfirst front).symm
      rw [List.filterMap_cons, component?] at h
      split_ifs at h with hdot hdots
      · apply hlater _ (ih hsound hnames h)
        intro front
        rw [lead, if_pos hdot]
      · apply hlater _ (ih hsound hnames.dropLast h)
        intro front
        rw [lead, if_neg hdot, if_pos hdots]
      · have hfirst (front : List String) : lead names (piece :: front) = lead (names ++ [piece]) front := by
          rw [lead, if_neg hdot, if_neg hdots]
        by_cases hlong : maxName < piece.utf8ByteSize
        · rw [makeFolders, if_pos hlong] at h
          left
          apply h
        · rw [makeFolders_name _ (Nat.not_lt.mp hlong)] at h
          rcases hat : tree.at? (names ++ [piece]) with _ | ⟨old⟩ | ⟨entries⟩
          · rw [hat] at h
            obtain ⟨hkeeps, hfolder, -⟩ := keeps_alter_folder hsound hnames hat
            rcases ih hkeeps.sound hfolder h with hnew | hway
            · by_cases heq : others = names ++ [piece]
              · right
                use [piece], List.prefix_append [piece] rest
                rw [hfirst, lead, heq]
              · left
                have hbare : FileNode.IsBare (some (.folder [])) := fun _ _ => rfl
                obtain ⟨-, hothers⟩ := at?_alter hsound hnames (not_isFolderAt_of_at?_eq_none hat) hbare
                apply (hothers others heq).2.mp hnew
            · apply hlater hfirst (.inr hway)
          · rw [hat] at h
            left
            apply h
          · rw [hat] at h
            apply hlater hfirst (ih hsound ⟨entries, hat⟩ h)

/-- If folders cannot be made, what is there does not lead to a folder. -/
theorem not_isFolderAt_of_makeFolders (hsound : tree.Sound) {names : List String}
    (hnames : tree.IsFolderAt names) {pieces found : List String} {e : FileError}
    (h : makeFolders names (pieces.filterMap component?) tree = (.error e, next))
    (hfollow : next.follow names pieces = .ok found) :
  ¬ next.IsFolderAt found
  := by
  induction pieces generalizing names tree with
  | nil => cases congrArg Prod.fst h
  | cons piece rest ih =>
      obtain ⟨-, hfollow⟩ := follow_cons_eq_ok.mp hfollow
      rw [List.filterMap_cons, component?] at h
      simp only [Bool.or_eq_true, beq_iff_eq] at h
      split_ifs at h hfollow
      · apply ih hsound hnames h hfollow
      · apply ih hsound hnames.dropLast h hfollow
      · obtain ⟨hshort, hfollow⟩ := hfollow
        dsimp only at h
        rw [makeFolders_name _ hshort] at h
        rcases hat : tree.at? (names ++ [piece]) with _ | ⟨old⟩ | ⟨entries⟩
        · rw [hat] at h
          obtain ⟨hkeeps, hfolder, -⟩ := keeps_alter_folder hsound hnames hat
          apply ih hkeeps.sound hfolder h hfollow
        · rw [hat] at h
          obtain ⟨-, rfl⟩ := Prod.mk.inj h
          have hfile : tree.file? (names ++ [piece]) = some old := by
            rw [file?, hat]
            rfl
          -- A file stands in the way: it leads nowhere, and is no folder itself.
          cases rest with
          | nil =>
              rw [← Except.ok.inj hfollow]
              apply not_isFolderAt_of_file? hfile
          | cons later rest =>
              cases not_isFolderAt_of_file? hfile (follow_cons_eq_ok.mp hfollow).1
        · rw [hat] at h
          apply ih hsound ⟨entries, hat⟩ h hfollow

end FileAction

/-! ### What a write does beside its file -/

namespace FileTree

variable {tree next last : FileTree} {path : String} {bytes : List UInt8}

/-- All files but the temporary one of a path are as they were, and all new folders are above the
path. -/
structure Prepares (path : String) (tree next : FileTree) : Prop extends tree.Keeps next where
  file?_eq : ∀ names, next.resolve (temporary path) ≠ .ok names → next.file? names = tree.file? names
  isFolderAt_of : ∀ names, next.IsFolderAt names → tree.IsFolderAt names ∨ tree.IsAbove path names

namespace Prepares

theorem refl (h : tree.Sound) :
  Prepares path tree tree
  := ⟨.refl h, fun _ _ => rfl, fun _ hnames => .inl hnames⟩

theorem trans (h : Prepares path tree next) (h' : Prepares path next last) :
  Prepares path tree last
  := by
  use h.toKeeps.trans h'.toKeeps
  · intro names hnames
    rw [h'.file?_eq names hnames, h.file?_eq]
    intro hresolve
    apply hnames (resolve_of_keeps h'.toKeeps hresolve)
  · intro names hnames
    rcases h'.isFolderAt_of names hnames with hnames | hnew
    · apply h.isFolderAt_of names hnames
    · right
      apply h.isAbove_iff.mp hnew

theorem of_sets (hresolve : tree.resolve (temporary path) = .ok (tree.namesOf (temporary path)))
    {bytes? : Option (List UInt8)} (h : Sets (tree.namesOf (temporary path)) bytes? tree next) :
  Prepares path tree next
  := by
  use h.toKeeps
  · intro names hnames
    apply h.file?_ne
    rintro rfl
    apply hnames (resolve_of_keeps h.toKeeps hresolve)
  · intro names hnames
    left
    apply h.isFolderAt_of names hnames

theorem of_createFolders (hsound : tree.Sound) {folder : String}
    (hparent : parent? path = some folder) :
  Prepares path tree (createFolders folder tree).2
  := by
  have hstart := hsound.isFolderAt_start folder
  rw [createFolders_eq]
  have hgrows := grows_makeFolders hsound hstart ((pieces folder).filterMap component?)
  use hgrows.toKeeps
  · intro names _
    apply hgrows.file?_eq
  · intro names hnames
    rcases exists_prefix_of_makeFolders hsound hstart _ hnames with hold | hway
    · left
      apply hold
    · right
      exact ⟨folder, hparent, hway⟩

end Prepares

/-- If the folder of a path cannot be made, there is no temporary file. -/
theorem read_temporary_of_createFolders (hsound : tree.Sound) {folder : String}
    (hparent : parent? path = some folder) (hfolder : folder ≠ "") {e : FileError}
    (h : createFolders folder tree = (.error e, next)) :
  next.read (temporary path) ≠ .ok bytes
  := by
  have hhere : next.here = tree.here := by
    have hkeeps := (Prepares.of_createFolders hsound hparent).toKeeps
    rw [h] at hkeeps
    apply hkeeps.here_eq
  rw [createFolders_eq] at h
  intro hread
  obtain ⟨names, hresolve, -⟩ := read_eq_ok_iff.mp hread
  obtain ⟨front, piece, rest, hpieces, hcases, habsolute⟩ := exists_pieces_temporary hparent hfolder
  have hfollow : next.follow (if isAbsolute folder then [] else tree.here) (front ++ piece :: rest)
      = .ok names := by
    rw [resolve] at hresolve
    split at hresolve
    · cases hresolve
    · rwa [habsolute, ← hpieces, ← hhere]
  have hfront := exists_follow_of_append hfollow
  rw [follow_append hfront] at hfollow
  obtain ⟨hbelow, -⟩ := follow_cons_eq_ok.mp hfollow
  apply not_isFolderAt_of_makeFolders hsound (hsound.isFolderAt_start folder) h _ hbelow
  rcases hcases with hsame | hslash
  · rw [hsame, hfront]
  · rw [hslash, follow_append hfront]
    apply follow_cons_eq_ok.mpr
    use hbelow
    rw [if_pos (.inl rfl)]
    rfl

/-- After the temporary file was removed, it is gone. -/
theorem prepares_remove (hsound : tree.Sound) :
  Prepares path tree (remove (temporary path) tree).2
    ∧ ∀ bytes, (remove (temporary path) tree).2.read (temporary path) ≠ .ok bytes
  := by
  cases hremove : remove (temporary path) tree with
  | mk result next =>
      cases result with
      | error e =>
          obtain rfl := eq_of_remove_eq_error hremove
          use Prepares.refl hsound
          intro bytes hread
          obtain ⟨next, hnext⟩ := exists_remove_of_read hread
          rw [hremove] at hnext
          cases congrArg Prod.fst hnext
      | ok u =>
          obtain ⟨names, middle, hlook, -⟩ := bind_eq_ok hremove
          obtain ⟨hresolve, rfl⟩ := of_look_eq_ok hlook
          obtain ⟨rfl, -⟩ := of_resolve_eq_ok hsound hresolve
          obtain ⟨-, hsets⟩ := sets_of_remove hsound hremove
          use Prepares.of_sets hresolve hsets
          intro bytes hread
          obtain ⟨names, hresolve', hfile⟩ := read_eq_ok_iff.mp hread
          obtain rfl := Except.ok.inj ((resolve_of_keeps hsets.toKeeps hresolve).symm.trans hresolve')
          rw [hsets.file?_self] at hfile
          cases hfile

/-- If the temporary file cannot be written or moved, it is gone afterwards. -/
theorem prepares_of_fill_move (hsound : tree.Sound) {e : FileError}
    (h : (do
      orRemove (temporary path) (write (temporary path) bytes)
      orRemove (temporary path) (move (temporary path) path)) tree = (.error e, next)) :
  Prepares path tree next ∧ ∀ bytes, next.read (temporary path) ≠ .ok bytes
  := by
  rcases of_bind h with ⟨e', hfill, -⟩ | ⟨_, written, hfill, hmove⟩
  · obtain ⟨middle, hwrite, rfl⟩ := of_orRemove_eq_error hfill
    obtain rfl := eq_of_write_eq_error hwrite
    apply prepares_remove hsound
  · obtain ⟨middle, hfail, rfl⟩ := of_orRemove_eq_error hmove
    obtain rfl := eq_of_move_eq_error hfail
    obtain ⟨hresolve, hwritten⟩ := sets_of_write hsound (of_orRemove_eq_ok hfill)
    obtain ⟨hprepares, hgone⟩ := @prepares_remove written path hwritten.sound
    use (Prepares.of_sets hresolve hwritten).trans hprepares

/-- A write fails before it reaches the temporary file, or the folders are ready for it. -/
theorem of_writeAtomic (hsound : tree.Sound) {result : Except FileError Unit}
    (h : writeAtomic path bytes tree = (result, next)) :
  (∃ e, result = .error e ∧ Prepares path tree next
      ∧ ∀ bytes, next.read (temporary path) ≠ .ok bytes)
    ∨ ∃ ready, Prepares path tree ready ∧ (do
      orRemove (temporary path) (write (temporary path) bytes)
      orRemove (temporary path) (move (temporary path) path)) ready = (result, next)
  := by
  rw [writeAtomic] at h
  cases hparent : parent? path with
  | none =>
      rw [hparent] at h
      right
      use tree, Prepares.refl hsound, h
  | some folder =>
      rw [hparent] at h
      dsimp only at h
      by_cases hfolder : (folder != "") = true
      · rw [if_pos hfolder] at h
        have hprepares := @Prepares.of_createFolders tree path hsound folder hparent
        rcases of_bind h with ⟨e, hcreate, rfl⟩ | ⟨_, ready, hcreate, h⟩
        · rw [hcreate] at hprepares
          left
          use e, rfl, hprepares
          intro bytes
          apply read_temporary_of_createFolders hsound hparent (bne_iff_ne.mp hfolder) hcreate
        · rw [hcreate] at hprepares
          right
          use ready, hprepares, h
      · rw [if_neg hfolder] at h
        right
        use tree, Prepares.refl hsound, h

/-! ### All or nothing -/

/-- A file was written: it has the new bytes, there is no temporary file, all other files are as they
were, and all new folders are above the file. -/
structure IsWritten (path : String) (bytes : List UInt8) (tree next : FileTree) : Prop
    extends tree.Keeps next where
  read_eq : next.read path = .ok bytes
  occurs_temporary : next.occurs (temporary path) = .ok false
  file?_eq : ∀ names, next.resolve path ≠ .ok names → next.resolve (temporary path) ≠ .ok names →
    next.file? names = tree.file? names
  isFolderAt_of : ∀ names, next.IsFolderAt names → tree.IsFolderAt names ∨ tree.IsAbove path names

/-- A file was not written: it and all others but the temporary one are as they were, there is no
temporary file, and all new folders are above the file and hold no files. -/
structure IsUnwritten (path : String) (tree next : FileTree) : Prop extends tree.Keeps next where
  file?_path : next.file? (tree.namesOf path) = tree.file? (tree.namesOf path)
  file?_eq : ∀ names, next.resolve (temporary path) ≠ .ok names → next.file? names = tree.file? names
  read_temporary : ∀ bytes, next.read (temporary path) ≠ .ok bytes
  isFolderAt_of : ∀ names, next.IsFolderAt names → tree.IsFolderAt names
    ∨ tree.IsAbove path names ∧ ∀ others, next.file? (names ++ others) = none

/-- A file that was put in its place is written. -/
theorem isWritten_of_move (hprepares : Prepares path tree next)
    (hresolve : next.resolve (temporary path) = .ok (next.namesOf (temporary path)))
    (hfile : next.file? (next.namesOf (temporary path)) = some bytes)
    (h : move (temporary path) path next = (.ok (), last)) :
  IsWritten path bytes tree last
  := by
  obtain ⟨found, moved, hfound, htarget, htaken, hput⟩ := exists_sets_of_move hprepares.sound h
  obtain rfl := Option.some.inj (hfile.symm.trans hfound)
  have hkeeps := htaken.toKeeps.trans hput.toKeeps
  have htemporary := resolve_of_keeps hkeeps hresolve
  have hpath := resolve_of_keeps hkeeps htarget
  have hne := next.namesOf_temporary_ne_self path
  have hnofolder : ¬ last.IsFolderAt (next.namesOf (temporary path)) := by
    intro hfolder
    apply not_isFolderAt_of_file? hfile (htaken.isFolderAt_of _ (hput.isFolderAt_of _ hfolder))
  have hnofile : last.file? (next.namesOf (temporary path)) = none := by
    rw [hput.file?_ne _ hne, htaken.file?_self]
  constructor
  · apply hprepares.toKeeps.trans hkeeps
  · apply read_eq_ok_iff.mpr
    use next.namesOf path, hpath, hput.file?_self
  · rw [occurs, find, htemporary]
    dsimp only
    rcases hat : last.at? (next.namesOf (temporary path)) with _ | ⟨old⟩ | ⟨entries⟩
    · rfl
    · rw [file?, hat] at hnofile
      cases hnofile
    · cases hnofolder ⟨entries, hat⟩
  · intro names hnames hnames'
    have hnext : next.resolve (temporary path) ≠ .ok names := by
      intro heq
      apply hnames' (resolve_of_keeps hkeeps heq)
    rw [hput.file?_ne, htaken.file?_ne, hprepares.file?_eq names hnext]
    · rintro rfl
      apply hnames' htemporary
    · rintro rfl
      apply hnames hpath
  · intro names hnames
    apply hprepares.isFolderAt_of names (htaken.isFolderAt_of _ (hput.isFolderAt_of _ hnames))

theorem isUnwritten_of_prepares (hprepares : Prepares path tree next)
    (hgone : ∀ bytes, next.read (temporary path) ≠ .ok bytes) :
  IsUnwritten path tree next
  := by
  constructor
  · apply hprepares.toKeeps
  · apply hprepares.file?_eq
    intro hresolve
    obtain ⟨heq, -⟩ := of_resolve_eq_ok hprepares.sound hresolve
    rw [hprepares.namesOf_eq] at heq
    apply tree.namesOf_temporary_ne_self path heq.symm
  · apply hprepares.file?_eq
  · apply hgone
  · intro names hnames
    by_cases hold : tree.IsFolderAt names
    · left
      apply hold
    · right
      use (hprepares.isFolderAt_of names hnames).resolve_left hold
      -- A file below a new folder would be new, and the temporary file is the only one that can be.
      intro others
      cases hfile : next.file? (names ++ others) with
      | none => rfl
      | some bytes =>
          have hother : next.resolve (temporary path) ≠ .ok (names ++ others) := by
            intro hresolve
            apply hgone bytes
            apply read_eq_ok_iff.mpr
            use names ++ others
          have hold' := hprepares.file?_eq _ hother
          rw [hfile] at hold'
          have hothers : others ≠ [] := by
            rintro rfl
            rw [List.append_nil] at hfile
            apply not_isFolderAt_of_file? hfile hnames
          cases hold (isFolderAt_of_file? hothers hold'.symm)

/-- A write that succeeds has written its file, and a write that fails has written nothing. -/
theorem isWritten_or_isUnwritten (hsound : tree.Sound) (path : String) (bytes : List UInt8) :
  (∀ next, writeAtomic path bytes tree = (.ok (), next) → IsWritten path bytes tree next)
    ∧ ∀ e next, writeAtomic path bytes tree = (.error e, next) → IsUnwritten path tree next
  := by
  constructor
  · intro next h
    rcases of_writeAtomic hsound h with ⟨e, hresult, -⟩ | ⟨ready, hready, h⟩
    · cases hresult
    · obtain ⟨_, written, hfill, hmove⟩ := bind_eq_ok h
      obtain ⟨hresolve, hwritten⟩ := sets_of_write hready.sound (of_orRemove_eq_ok hfill)
      have hfile := hwritten.file?_self
      have hresolve' := resolve_of_keeps hwritten.toKeeps hresolve
      rw [← hwritten.namesOf_eq] at hfile hresolve'
      apply isWritten_of_move (hready.trans (Prepares.of_sets hresolve hwritten)) hresolve' hfile
        (of_orRemove_eq_ok hmove)
  · intro e next h
    rcases of_writeAtomic hsound h with ⟨e', -, hprepares, hgone⟩ | ⟨ready, hready, h⟩
    · apply isUnwritten_of_prepares hprepares hgone
    · obtain ⟨hprepares, hgone⟩ := prepares_of_fill_move hready.sound h
      apply isUnwritten_of_prepares (hready.trans hprepares) hgone

/-- A file is written where there is nothing, is not written over a folder, and not below a file. -/
theorem isWritten_or_isUnwritten_notes :
  ∃ tree next last, writeAtomic "notes/today" [1] .empty = (.ok (), tree)
    ∧ IsWritten "notes/today" [1] .empty tree
    ∧ writeAtomic "notes" [2] tree = (.error .isFolder, next) ∧ IsUnwritten "notes" tree next
    ∧ writeAtomic "notes/today/late" [3] tree = (.error .occupied, last)
    ∧ IsUnwritten "notes/today/late" tree last
  := by
  have hfirst : (writeAtomic "notes/today" [1] .empty).1 = .ok () := by decide +kernel
  have hsecond : (writeAtomic "notes" [2] (writeAtomic "notes/today" [1] .empty).2).1
      = .error .isFolder := by decide +kernel
  have hthird : (writeAtomic "notes/today/late" [3] (writeAtomic "notes/today" [1] .empty).2).1
      = .error .occupied := by decide +kernel
  cases hrun : writeAtomic "notes/today" [1] .empty with
  | mk result tree =>
      rw [hrun] at hfirst hsecond hthird
      obtain rfl : result = .ok () := hfirst
      have hwritten := (isWritten_or_isUnwritten sound_empty "notes/today" [1]).1 tree hrun
      cases hrun' : writeAtomic "notes" [2] tree with
      | mk result next =>
          rw [hrun'] at hsecond
          obtain rfl : result = .error .isFolder := hsecond
          cases hrun'' : writeAtomic "notes/today/late" [3] tree with
          | mk result last =>
              rw [hrun''] at hthird
              obtain rfl : result = .error .occupied := hthird
              exact ⟨tree, next, last, rfl, hwritten, hrun',
                (isWritten_or_isUnwritten hwritten.sound _ _).2 _ next hrun', hrun'',
                (isWritten_or_isUnwritten hwritten.sound _ _).2 _ last hrun''⟩

end FileTree

end Scrutiny
