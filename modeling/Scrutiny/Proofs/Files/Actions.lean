import Scrutiny.Files.Atomic
import Scrutiny.Proofs.Files.Tree
import Scrutiny.Proofs.Text.Lines

/-!
# What actions on files do

A path leads to names that depend on nothing but the path and the current folder, as far as
it leads to anything.  An action that succeeds has found what it needs, and changes the files
under the names of its path and no others.
-/

namespace Scrutiny

namespace Path

/-- The names that the parts of a path lead to from a folder on. -/
def lead (names : List String) : List String → List String
  | [] => names
  | piece :: rest =>
    if piece == "" || piece == "." then lead names rest
    else if piece == ".." then lead names.dropLast rest
    else lead (names ++ [piece]) rest

theorem exists_pieces_cons (path : String) :
  ∃ first rest, pieces path = first :: rest
  := by
  apply List.exists_cons_of_ne_nil
  rw [pieces, ne_eq, List.map_eq_nil_iff]
  apply Text.splitAt_ne_nil

/-- An absolute path starts with a part that is no component. -/
theorem component?_first_of_isAbsolute {path first : String} {rest : List String}
    (h : isAbsolute path) (hpieces : pieces path = first :: rest) :
  component? first = none
  := by
  obtain ⟨later, hlater⟩ := List.head?_eq_some_iff.mp (eq_of_beq h)
  rw [pieces, hlater] at hpieces
  obtain rfl : "" = first := (List.cons.inj hpieces).1
  rfl

end Path

namespace FileTree

variable {tree next : FileTree}

/-- The names that a path leads to. -/
def namesOf (tree : FileTree) (path : String) : List String :=
  Path.lead (if Path.isAbsolute path then [] else tree.here) (Path.pieces path)

theorem Keeps.namesOf_eq (h : tree.Keeps next) (path : String) :
  next.namesOf path = tree.namesOf path
  := by
  rw [namesOf, namesOf, h.here_eq]

theorem Keeps.trans {last : FileTree} (h : tree.Keeps next) (h' : next.Keeps last) :
  tree.Keeps last
  := by
  constructor
  · apply h'.sound
  · rw [h'.here_eq, h.here_eq]
  · intro names hnames
    apply h'.isFolderAt names (h.isFolderAt names hnames)

theorem Keeps.refl (h : tree.Sound) :
  tree.Keeps tree
  := ⟨h, rfl, fun _ hnames => hnames⟩

/-! ### Following a path -/

theorem enter_eq_ok_iff {names : List String} :
  tree.enter names = .ok () ↔ tree.IsFolderAt names
  := by
  rw [enter, IsFolderAt, FileNode.IsFolderAt, ← at?]
  cases tree.at? names with
  | none => simp
  | some node => cases node <;> simp

/-- One step of following a path. -/
theorem follow_cons_eq_ok {names found : List String} {piece : String} {rest : List String} :
  tree.follow names (piece :: rest) = .ok found
    ↔ tree.IsFolderAt names ∧
      if piece = "" ∨ piece = "." then tree.follow names rest = .ok found
      else if piece = ".." then tree.follow names.dropLast rest = .ok found
      else piece.utf8ByteSize ≤ maxName ∧ tree.follow (names ++ [piece]) rest = .ok found
  := by
  rw [follow, ← enter_eq_ok_iff]
  cases tree.enter names with
  | error e => simp
  | ok u =>
      simp only [Bool.or_eq_true, beq_iff_eq, true_and]
      split_ifs <;> simp_all

theorem eq_lead_of_follow {names pieces found : List String}
    (h : tree.follow names pieces = .ok found) :
  found = Path.lead names pieces
  := by
  induction pieces generalizing names with
  | nil =>
      rw [follow] at h
      rw [Path.lead, Except.ok.inj h]
  | cons piece rest ih =>
      obtain ⟨-, h⟩ := follow_cons_eq_ok.mp h
      rw [Path.lead]
      simp only [Bool.or_eq_true, beq_iff_eq]
      split_ifs at h ⊢
      · apply ih h
      · apply ih h
      · apply ih h.2

/-- The folder that the last name is looked up in exists. -/
theorem isFolderAt_dropLast_of_follow {names pieces found : List String}
    (h : tree.follow names pieces = .ok found) (hnames : tree.IsFolderAt names.dropLast) :
  tree.IsFolderAt found.dropLast
  := by
  induction pieces generalizing names with
  | nil =>
      rw [follow] at h
      rwa [← Except.ok.inj h]
  | cons piece rest ih =>
      obtain ⟨hfolder, h⟩ := follow_cons_eq_ok.mp h
      split_ifs at h
      · apply ih h hnames
      · apply ih h hnames.dropLast
      · apply ih h.2
        rwa [List.dropLast_concat]

theorem follow_of_keeps (hkeeps : tree.Keeps next) {names pieces found : List String}
    (h : tree.follow names pieces = .ok found) :
  next.follow names pieces = .ok found
  := by
  induction pieces generalizing names with
  | nil => apply h
  | cons piece rest ih =>
      obtain ⟨hfolder, h⟩ := follow_cons_eq_ok.mp h
      apply follow_cons_eq_ok.mpr
      use hkeeps.isFolderAt names hfolder
      split_ifs at h ⊢
      · apply ih h
      · apply ih h
      · use h.1, ih h.2

/-- What a path leads to: its names, below a folder that exists. -/
theorem of_resolve_eq_ok (hsound : tree.Sound) {path : String} {names : List String}
    (h : tree.resolve path = .ok names) :
  names = tree.namesOf path ∧ tree.IsFolderAt names.dropLast
  := by
  rw [resolve] at h
  split at h
  · cases h
  · use eq_lead_of_follow h
    apply isFolderAt_dropLast_of_follow h
    split
    · apply hsound.root
    · apply hsound.here.dropLast

theorem resolve_of_keeps (hkeeps : tree.Keeps next) {path : String} {names : List String}
    (h : tree.resolve path = .ok names) :
  next.resolve path = .ok names
  := by
  rw [resolve] at h ⊢
  split at h
  · cases h
  · rename_i hpath
    rw [if_neg hpath, hkeeps.here_eq]
    apply follow_of_keeps hkeeps h

/-- The bytes of a file are those under the names that its path leads to. -/
theorem read_eq_ok_iff {path : String} {bytes : List UInt8} :
  tree.read path = .ok bytes
    ↔ ∃ names, tree.resolve path = .ok names ∧ tree.file? names = some bytes
  := by
  rw [read, find]
  cases tree.resolve path with
  | error e => simp
  | ok names =>
      simp only [Except.ok.injEq, exists_eq_left', file?]
      cases tree.at? names with
      | none => simp
      | some node => cases node <;> simp [FileNode.bytes?]

/-- A file that is not touched is read as before. -/
theorem read_of_keeps (hkeeps : tree.Keeps next) (hsound : tree.Sound) {path : String}
    (hfile : next.file? (tree.namesOf path) = tree.file? (tree.namesOf path))
    {bytes : List UInt8} (h : tree.read path = .ok bytes) :
  next.read path = .ok bytes
  := by
  obtain ⟨names, hresolve, hbytes⟩ := read_eq_ok_iff.mp h
  obtain ⟨rfl, -⟩ := of_resolve_eq_ok hsound hresolve
  apply read_eq_ok_iff.mpr
  use tree.namesOf path, resolve_of_keeps hkeeps hresolve
  rw [hfile, hbytes]

end FileTree

/-! ### Actions that succeed -/

namespace FileAction

variable {α β : Type} {tree next : FileTree}

/-- An action that is followed by another one. -/
theorem bind_eq_ok {action : FileAction α} {later : α → FileAction β} {b : β}
    (h : (action >>= later) tree = (.ok b, next)) :
  ∃ a middle, action tree = (.ok a, middle) ∧ later a middle = (.ok b, next)
  := by
  have hbind : (action >>= later) tree = ExceptT.bindCont later (action tree).1 (action tree).2 :=
    rfl
  rw [hbind] at h
  cases hresult : (action tree).1 with
  | error e =>
      rw [hresult] at h
      cases h
  | ok a =>
      rw [hresult] at h
      use a, (action tree).2
      use Prod.ext hresult rfl, h

theorem bind_of_ok {action : FileAction α} (later : α → FileAction β) {a : α}
    (h : action tree = (.ok a, next)) :
  (action >>= later) tree = later a next
  := by
  have hbind : (action >>= later) tree = ExceptT.bindCont later (action tree).1 (action tree).2 :=
    rfl
  rw [hbind, h]
  rfl

theorem bind_of_error {action : FileAction α} (later : α → FileAction β) {e : FileError}
    (h : action tree = (.error e, next)) :
  (action >>= later) tree = (.error e, next)
  := by
  have hbind : (action >>= later) tree = ExceptT.bindCont later (action tree).1 (action tree).2 :=
    rfl
  rw [hbind, h]
  rfl

theorem get_bind (later : FileTree → FileAction β) :
  ((get : FileAction FileTree) >>= later) tree = later tree tree
  := rfl

theorem tryCatch_eq (action : FileAction α) (handler : FileError → FileAction α) (tree : FileTree) :
  tryCatch action handler tree = ExceptT.tryCatch action handler tree
  := rfl

theorem state_bind_eq (action : StateM FileTree α) (later : α → StateM FileTree β)
    (tree : FileTree) :
  (action >>= later) tree = later (action tree).1 (action tree).2
  := rfl

/-- An action whose failure is handled. -/
theorem of_tryCatch_eq_ok {action : FileAction α} {handler : FileError → FileAction α} {a : α}
    (h : tryCatch action handler tree = (.ok a, next)) :
  action tree = (.ok a, next)
    ∨ ∃ e middle, action tree = (.error e, middle) ∧ handler e middle = (.ok a, next)
  := by
  rw [tryCatch_eq, ExceptT.tryCatch, ExceptT.mk, state_bind_eq] at h
  cases haction : action tree with
  | mk result middle =>
      rw [haction] at h
      cases result with
      | ok found =>
          left
          apply h
      | error e =>
          right
          use e, middle, rfl, h

theorem of_pure_eq_ok {a b : α} (h : (pure a : FileAction α) tree = (.ok b, next)) :
  a = b ∧ tree = next
  := by
  cases h
  use rfl

theorem throw_ne_ok {e : FileError} {a : α} :
  (throw e : FileAction α) tree ≠ (.ok a, next)
  := by
  intro h
  cases h

theorem of_get_eq_ok {found : FileTree}
    (h : (get : FileAction FileTree) tree = (.ok found, next)) :
  tree = found ∧ tree = next
  := by
  cases h
  use rfl

theorem of_look_eq_ok {view : FileTree → Except FileError α} {a : α}
    (h : look view tree = (.ok a, next)) :
  view tree = .ok a ∧ tree = next
  := by
  use congrArg Prod.fst h
  apply congrArg Prod.snd h

theorem of_change_eq_ok {names : List String} {change : Option FileNode → Option FileNode}
    (h : FileAction.change names change tree = (.ok (), next)) :
  tree.alter names change = next
  := congrArg Prod.snd h

/-- A file that was written has the new bytes, and all others are as they were. -/
theorem sets_of_write (hsound : tree.Sound) {path : String} {bytes : List UInt8}
    (h : write path bytes tree = (.ok (), next)) :
  tree.resolve path = .ok (tree.namesOf path)
    ∧ FileTree.Sets (tree.namesOf path) (some bytes) tree next
  := by
  obtain ⟨names, middle, hlook, h⟩ := bind_eq_ok h
  obtain ⟨hresolve, rfl⟩ := of_look_eq_ok hlook
  obtain ⟨found, middle, hget, h⟩ := bind_eq_ok h
  obtain ⟨rfl, rfl⟩ := of_get_eq_ok hget
  obtain ⟨rfl, hparent⟩ := FileTree.of_resolve_eq_ok hsound hresolve
  use hresolve
  have hold : ¬ tree.IsFolderAt (tree.namesOf path) := by
    rintro ⟨entries, hentries⟩
    have hat : tree.at? (tree.namesOf path) = some (.folder entries) := hentries
    rw [hat] at h
    cases throw_ne_ok h
  have hnext : tree.alter (tree.namesOf path) (fun _ => some (.file bytes)) = next := by
    cases hat : tree.at? (tree.namesOf path) with
    | none =>
        rw [hat] at h
        apply of_change_eq_ok h
    | some node =>
        cases node with
        | folder entries => cases hold ⟨entries, hat⟩
        | file old =>
            rw [hat] at h
            apply of_change_eq_ok h
  rw [← hnext]
  apply FileTree.sets_alter hsound hparent hold (some bytes)

/-- A file that was removed was there, and all others are as they were. -/
theorem sets_of_remove (hsound : tree.Sound) {path : String}
    (h : remove path tree = (.ok (), next)) :
  (∃ bytes, tree.file? (tree.namesOf path) = some bytes)
    ∧ FileTree.Sets (tree.namesOf path) none tree next
  := by
  obtain ⟨names, middle, hlook, h⟩ := bind_eq_ok h
  obtain ⟨hresolve, rfl⟩ := of_look_eq_ok hlook
  obtain ⟨found, middle, hget, h⟩ := bind_eq_ok h
  obtain ⟨rfl, rfl⟩ := of_get_eq_ok hget
  obtain ⟨rfl, hparent⟩ := FileTree.of_resolve_eq_ok hsound hresolve
  cases hat : tree.at? (tree.namesOf path) with
  | none =>
      rw [hat] at h
      cases throw_ne_ok h
  | some node =>
      cases node with
      | folder entries =>
          rw [hat] at h
          cases throw_ne_ok h
      | file bytes =>
          rw [hat] at h
          obtain rfl := of_change_eq_ok h
          have hfile : tree.file? (tree.namesOf path) = some bytes := by
            rw [FileTree.file?, hat]
            rfl
          use ⟨bytes, hfile⟩
          apply FileTree.sets_alter hsound hparent (FileTree.not_isFolderAt_of_file? hfile) none

/-- A file that was moved is taken from one place and put to another one. -/
theorem exists_sets_of_move (hsound : tree.Sound) {source target : String}
    (h : move source target tree = (.ok (), next)) :
  ∃ bytes middle, tree.file? (tree.namesOf source) = some bytes
    ∧ tree.resolve target = .ok (tree.namesOf target)
    ∧ FileTree.Sets (tree.namesOf source) none tree middle
    ∧ FileTree.Sets (tree.namesOf target) (some bytes) middle next
  := by
  obtain ⟨names, middle, hlook, h⟩ := bind_eq_ok h
  obtain ⟨hresolve, rfl⟩ := of_look_eq_ok hlook
  obtain ⟨found, middle, hget, h⟩ := bind_eq_ok h
  obtain ⟨rfl, rfl⟩ := of_get_eq_ok hget
  obtain ⟨rfl, hparent⟩ := FileTree.of_resolve_eq_ok hsound hresolve
  cases hat : tree.at? (tree.namesOf source) with
  | none =>
      rw [hat] at h
      cases throw_ne_ok h
  | some node =>
      cases node with
      | folder entries =>
          rw [hat] at h
          cases throw_ne_ok h
      | file bytes =>
          rw [hat] at h
          dsimp only at h
          have hfile : tree.file? (tree.namesOf source) = some bytes := by
            rw [FileTree.file?, hat]
            rfl
          have hremoved := FileTree.sets_alter hsound hparent
            (FileTree.not_isFolderAt_of_file? hfile) none
          by_cases hslash : (target.toList.getLast? == some '/') = true
          · rw [if_pos hslash] at h
            obtain ⟨_, _, hthrow, -⟩ := bind_eq_ok h
            cases throw_ne_ok hthrow
          · rw [if_neg hslash] at h
            obtain ⟨goal, middle, hlook', h⟩ := bind_eq_ok h
            obtain ⟨hresolve', rfl⟩ := of_look_eq_ok hlook'
            obtain ⟨found, middle, hget', h⟩ := bind_eq_ok h
            obtain ⟨rfl, rfl⟩ := of_get_eq_ok hget'
            obtain ⟨rfl, hparent'⟩ := FileTree.of_resolve_eq_ok hsound hresolve'
            use bytes, tree.alter (tree.namesOf source) fun _ => none
            use hfile, hresolve', hremoved
            have hold : ¬ tree.IsFolderAt (tree.namesOf target) := by
              rintro ⟨entries, hentries⟩
              have hat' : tree.at? (tree.namesOf target) = some (.folder entries) := hentries
              rw [hat'] at h
              cases throw_ne_ok h
            have hnext : (tree.alter (tree.namesOf source) fun _ => none).alter
                (tree.namesOf target) (fun _ => some (.file bytes)) = next := by
              have hchanges : (do
                  change (tree.namesOf source) fun _ => none
                  change (tree.namesOf target) fun _ => some (.file bytes)) tree
                  = (.ok (), next) := by
                cases hat' : tree.at? (tree.namesOf target) with
                | none =>
                    rw [hat'] at h
                    apply h
                | some node =>
                    cases node with
                    | folder entries => cases hold ⟨entries, hat'⟩
                    | file old =>
                        rw [hat'] at h
                        apply h
              obtain ⟨_, middle, hfirst, hsecond⟩ := bind_eq_ok hchanges
              obtain rfl := of_change_eq_ok hfirst
              apply of_change_eq_ok hsecond
            rw [← hnext]
            apply FileTree.sets_alter hremoved.sound (hremoved.isFolderAt _ hparent')
              (fun hfolder => hold (hremoved.isFolderAt_of _ hfolder)) (some bytes)

/-! ### Folders -/

/-- The second tree has the same files, and at least the same folders. -/
structure Grows (tree next : FileTree) : Prop extends tree.Keeps next where
  /-- All files are as they were. -/
  file?_eq : ∀ names, next.file? names = tree.file? names

theorem Grows.refl (h : tree.Sound) :
  Grows tree tree
  := ⟨.refl h, fun _ => rfl⟩

theorem Grows.trans {last : FileTree} (h : Grows tree next) (h' : Grows next last) :
  Grows tree last
  := by
  use h.toKeeps.trans h'.toKeeps
  intro names
  rw [h'.file?_eq, h.file?_eq]

/-- A folder on the way is there already, or it is made. -/
theorem of_makeFolders_name (hsound : tree.Sound) {names : List String}
    (hnames : tree.IsFolderAt names) {name : String} {rest : List Path.Component}
    (h : makeFolders names (.name name :: rest) tree = (.ok (), next)) :
  name.utf8ByteSize ≤ FileTree.maxName
    ∧ ∃ middle, Grows tree middle ∧ middle.IsFolderAt (names ++ [name])
      ∧ makeFolders (names ++ [name]) rest middle = (.ok (), next)
  := by
  rw [makeFolders] at h
  by_cases hlong : FileTree.maxName < name.utf8ByteSize
  · rw [if_pos hlong] at h
    obtain ⟨_, _, hthrow, -⟩ := bind_eq_ok h
    cases throw_ne_ok hthrow
  · rw [if_neg hlong] at h
    use Nat.not_lt.mp hlong
    obtain ⟨found, middle, hget, h⟩ := bind_eq_ok h
    obtain ⟨rfl, rfl⟩ := of_get_eq_ok hget
    cases hat : tree.at? (names ++ [name]) with
    | none =>
        rw [hat] at h
        obtain ⟨_, middle, hchange, h⟩ := bind_eq_ok h
        obtain rfl := of_change_eq_ok hchange
        obtain ⟨hkeeps, hfolder, hfiles⟩ := FileTree.keeps_alter_folder hsound hnames hat
        use tree.alter (names ++ [name]) fun _ => some (.folder []), ⟨hkeeps, hfiles⟩, hfolder, h
    | some node =>
        rw [hat] at h
        cases node with
        | file bytes => cases throw_ne_ok h
        | folder entries => use tree, .refl hsound, ⟨entries, hat⟩, h

/-- After folders were made on the way that the parts of a path lead, it can be followed. -/
theorem grows_of_makeFolders (hsound : tree.Sound) {names : List String}
    (hnames : tree.IsFolderAt names) {pieces : List String}
    (h : makeFolders names (pieces.filterMap Path.component?) tree = (.ok (), next)) :
  Grows tree next ∧ next.follow names pieces = .ok (Path.lead names pieces)
    ∧ next.IsFolderAt (Path.lead names pieces)
  := by
  induction pieces generalizing names tree with
  | nil =>
      obtain ⟨-, rfl⟩ := of_pure_eq_ok h
      constructor
      · apply Grows.refl hsound
      constructor
      · rfl
      · apply hnames
  | cons piece rest ih =>
      rw [List.filterMap_cons, Path.component?] at h
      rw [Path.lead, FileTree.follow_cons_eq_ok]
      simp only [Bool.or_eq_true, beq_iff_eq] at h ⊢
      split_ifs at h ⊢
      · obtain ⟨hgrows, hfollow, hfolder⟩ := ih hsound hnames h
        use hgrows, ⟨hgrows.isFolderAt _ hnames, hfollow⟩
      · obtain ⟨hgrows, hfollow, hfolder⟩ := ih hsound hnames.dropLast h
        use hgrows, ⟨hgrows.isFolderAt _ hnames, hfollow⟩
      · obtain ⟨hlong, middle, hgrows, hmade, h⟩ := of_makeFolders_name hsound hnames h
        obtain ⟨hgrows', hfollow, hfolder⟩ := ih hgrows.sound hmade h
        use hgrows.trans hgrows'
        use ⟨hgrows'.isFolderAt _ (hgrows.isFolderAt _ hnames), hlong, hfollow⟩

theorem makeFolders_components (here : List String) (path : String) :
  makeFolders here (Path.components path)
    = makeFolders (if Path.isAbsolute path then [] else here)
      ((Path.pieces path).filterMap Path.component?)
  := by
  obtain ⟨first, rest, hpieces⟩ := Path.exists_pieces_cons path
  rw [Path.components, hpieces]
  dsimp only
  by_cases habsolute : Path.isAbsolute path = true
  · have hfirst := Path.component?_first_of_isAbsolute habsolute hpieces
    rw [if_pos habsolute, if_pos habsolute, List.filterMap_cons, hfirst]
    rfl
  · rw [if_neg habsolute, if_neg habsolute]
    by_cases hdot : (first == ".") = true
    · rw [if_pos hdot, eq_of_beq hdot]
      rfl
    · rw [if_neg hdot, List.filterMap_cons]
      cases Path.component? first <;> rfl

/-- After a folder was made, its path leads to it. -/
theorem grows_of_createFolders (hsound : tree.Sound) {path : String}
    (h : createFolders path tree = (.ok (), next)) :
  Grows tree next
    ∧ next.follow (if Path.isAbsolute path then [] else tree.here) (Path.pieces path)
      = .ok (tree.namesOf path)
    ∧ next.IsFolderAt (tree.namesOf path)
  := by
  obtain ⟨found, middle, hget, h⟩ := bind_eq_ok h
  obtain ⟨rfl, rfl⟩ := of_get_eq_ok hget
  rw [makeFolders_components] at h
  apply grows_of_makeFolders hsound _ h
  split
  · apply hsound.root
  · apply hsound.here

/-! ### Removing what may be there, and writing as a whole -/

/-- A file that is there can be removed. -/
theorem exists_remove_of_read {path : String} {bytes : List UInt8}
    (h : tree.read path = .ok bytes) :
  ∃ next, remove path tree = (.ok (), next)
  := by
  obtain ⟨names, hresolve, hfile⟩ := FileTree.read_eq_ok_iff.mp h
  have hlook : look (·.resolve path) tree = (.ok names, tree) := by
    rw [look, hresolve]
  use tree.alter names fun _ => none
  rw [remove, bind_of_ok _ hlook, get_bind, FileTree.at?_of_file? hfile]
  rfl

/-- Removing a file changes nothing if it fails. -/
theorem eq_of_remove_eq_error {path : String} {e : FileError}
    (h : remove path tree = (.error e, next)) :
  tree = next
  := by
  cases hresolve : tree.resolve path with
  | error e' =>
      have hlook : look (·.resolve path) tree = (.error e', tree) := by
        rw [look, hresolve]
      rw [remove, bind_of_error _ hlook] at h
      apply congrArg Prod.snd h
  | ok names =>
      have hlook : look (·.resolve path) tree = (.ok names, tree) := by
        rw [look, hresolve]
      rw [remove, bind_of_ok _ hlook, get_bind] at h
      cases hat : tree.at? names with
      | none =>
          rw [hat] at h
          apply congrArg Prod.snd h
      | some node =>
          rw [hat] at h
          cases node with
          | folder entries => apply congrArg Prod.snd h
          | file bytes => cases congrArg Prod.fst h

/-- A file that may be there is not there any more; the answer tells whether it was. -/
theorem of_removeIfThere (hsound : tree.Sound) {path : String} {removed : Bool}
    (h : removeIfThere path tree = (.ok removed, next)) :
  (removed = true ∧ (∃ bytes, tree.file? (tree.namesOf path) = some bytes)
      ∧ FileTree.Sets (tree.namesOf path) none tree next)
    ∨ (removed = false ∧ tree = next ∧ ∀ bytes, tree.read path ≠ .ok bytes)
  := by
  rcases of_tryCatch_eq_ok h with h | ⟨e, middle, hfail, h⟩
  · left
    obtain ⟨_, middle, hremove, h⟩ := bind_eq_ok h
    obtain ⟨rfl, rfl⟩ := of_pure_eq_ok h
    use rfl
    apply sets_of_remove hsound hremove
  · right
    have hread : ∀ bytes, tree.read path ≠ .ok bytes := by
      intro bytes hbytes
      obtain ⟨after, hremove⟩ := exists_remove_of_read hbytes
      rw [bind_of_ok _ hremove] at hfail
      cases congrArg Prod.fst hfail
    have hmiddle : tree = middle := by
      cases hremove : remove path tree with
      | mk result after =>
          cases result with
          | ok u =>
              rw [bind_of_ok _ hremove] at hfail
              cases congrArg Prod.fst hfail
          | error e' =>
              rw [bind_of_error _ hremove] at hfail
              rw [eq_of_remove_eq_error hremove]
              apply congrArg Prod.snd hfail
    by_cases he : (e == .notFound) = true
    · rw [if_pos he] at h
      obtain ⟨rfl, rfl⟩ := of_pure_eq_ok h
      use rfl, hmiddle, hread
    · rw [if_neg he] at h
      cases throw_ne_ok h

/-- An action that was cleaned up after has failed, so one that succeeds was not. -/
theorem of_orRemove_eq_ok {path : String} {action : FileAction Unit}
    (h : orRemove path action tree = (.ok (), next)) :
  action tree = (.ok (), next)
  := by
  rcases of_tryCatch_eq_ok h with h | ⟨e, middle, -, h⟩
  · apply h
  · obtain ⟨_, middle, -, h⟩ := bind_eq_ok h
    cases throw_ne_ok h

/-- The steps of writing a file as a whole: folders, the temporary file, and its move. -/
theorem exists_of_writeAtomic (hsound : tree.Sound) {path : String} {bytes : List UInt8}
    (h : writeAtomic path bytes tree = (.ok (), next)) :
  ∃ ready written, Grows tree ready
    ∧ write (Path.temporary path) bytes ready = (.ok (), written)
    ∧ move (Path.temporary path) path written = (.ok (), next)
  := by
  have hsteps {ready : FileTree} (hgrows : Grows tree ready)
      (h : (do
        orRemove (Path.temporary path) (write (Path.temporary path) bytes)
        orRemove (Path.temporary path) (move (Path.temporary path) path)) ready
        = (.ok (), next)) :
      ∃ ready written, Grows tree ready
        ∧ write (Path.temporary path) bytes ready = (.ok (), written)
        ∧ move (Path.temporary path) path written = (.ok (), next) := by
    obtain ⟨_, written, hwrite, hmove⟩ := bind_eq_ok h
    use ready, written, hgrows, of_orRemove_eq_ok hwrite, of_orRemove_eq_ok hmove
  rw [writeAtomic] at h
  cases hparent : Path.parent? path with
  | none =>
      rw [hparent] at h
      apply hsteps (.refl hsound) h
  | some folder =>
      rw [hparent] at h
      dsimp only at h
      by_cases hfolder : (folder != "") = true
      · rw [if_pos hfolder] at h
        obtain ⟨_, ready, hcreate, h⟩ := bind_eq_ok h
        apply hsteps (grows_of_createFolders hsound hcreate).1 h
      · rw [if_neg hfolder] at h
        apply hsteps (.refl hsound) h

/-- A file that was written as a whole has the new bytes, and all others but the temporary one are
as they were. -/
structure Replaces (path : String) (bytes : List UInt8) (tree next : FileTree) : Prop
    extends tree.Keeps next where
  /-- The file can be read. -/
  read_eq : next.read path = .ok bytes
  /-- All files but it and the temporary one are the same. -/
  file?_eq : ∀ names, names ≠ tree.namesOf path → names ≠ tree.namesOf (Path.temporary path) →
    next.file? names = tree.file? names
  /-- The temporary file is gone. -/
  file?_temporary : tree.namesOf (Path.temporary path) ≠ tree.namesOf path →
    next.file? (tree.namesOf (Path.temporary path)) = none

theorem replaces_of_writeAtomic (hsound : tree.Sound) {path : String} {bytes : List UInt8}
    (h : writeAtomic path bytes tree = (.ok (), next)) :
  Replaces path bytes tree next
  := by
  obtain ⟨ready, written, hgrows, hwrite, hmove⟩ := exists_of_writeAtomic hsound h
  obtain ⟨-, hwritten⟩ := sets_of_write hgrows.sound hwrite
  obtain ⟨found, moved, hfound, hresolve, htaken, hput⟩ := exists_sets_of_move hwritten.sound hmove
  have hkeeps := hgrows.toKeeps.trans hwritten.toKeeps
  have hkeeps' := htaken.toKeeps.trans hput.toKeeps
  rw [hwritten.namesOf_eq, hwritten.file?_self] at hfound
  obtain rfl := Option.some.inj hfound
  rw [hkeeps.namesOf_eq] at hresolve htaken hput
  constructor
  · apply hkeeps.trans hkeeps'
  · apply FileTree.read_eq_ok_iff.mpr
    use tree.namesOf path, FileTree.resolve_of_keeps hkeeps' hresolve, hput.file?_self
  · intro names hpath htemporary
    have hready := hwritten.file?_ne names
    rw [hgrows.namesOf_eq] at hready
    rw [hput.file?_ne names hpath, htaken.file?_ne names htemporary, hready htemporary,
      hgrows.file?_eq]
  · intro hne
    rw [hput.file?_ne _ hne, htaken.file?_self]

end FileAction

end Scrutiny
