import Scrutiny.Proofs.Files.Below

/-!
# Actions that may fail

What an action on files leaves behind, whatever comes of it.  Writing, moving or removing a file
changes nothing if it fails; making folders changes no file, even if it stops on the way.
-/

namespace Scrutiny

namespace FileTree

variable {tree next last : FileTree} {touched more : Set (List String)}

/-- All files but those under some names are as they were, and there are no new folders but on the
way to those names. -/
structure Touches (touched : Set (List String)) (tree next : FileTree) : Prop
    extends tree.Keeps next where
  /-- All other files. -/
  file?_eq : ∀ names, names ∉ touched → next.file? names = tree.file? names
  /-- The new folders. -/
  isFolderAt_of : ∀ names, next.IsFolderAt names →
    tree.IsFolderAt names ∨ ∃ other ∈ touched, names <+: other ∧ names ≠ other

theorem Touches.refl (h : tree.Sound) (touched : Set (List String)) :
  Touches touched tree tree
  := by
  constructor
  · apply Keeps.refl h
  · intro names _
    rfl
  · intro names hnames
    left
    apply hnames

theorem Touches.trans (h : Touches touched tree next) (h' : Touches touched next last) :
  Touches touched tree last
  := by
  constructor
  · apply h.toKeeps.trans h'.toKeeps
  · intro names hnames
    rw [h'.file?_eq names hnames, h.file?_eq names hnames]
  · intro names hnames
    rcases h'.isFolderAt_of names hnames with hnames | hnew
    · apply h.isFolderAt_of names hnames
    · right
      apply hnew

theorem Touches.mono (h : Touches touched tree next) (hsubset : touched ⊆ more) :
  Touches more tree next
  := by
  constructor
  · apply h.toKeeps
  · intro names hnames
    apply h.file?_eq
    intro hmem
    apply hnames (hsubset hmem)
  · intro names hnames
    rcases h.isFolderAt_of names hnames with hold | ⟨other, hother, hprefix⟩
    · left
      apply hold
    · right
      use other, hsubset hother

theorem Sets.touches {names : List String} {bytes? : Option (List UInt8)}
    (h : Sets names bytes? tree next) (hmem : names ∈ touched) :
  Touches touched tree next
  := by
  constructor
  · apply h.toKeeps
  · intro others hothers
    apply h.file?_ne
    rintro rfl
    apply hothers hmem
  · intro others hothers
    left
    apply h.isFolderAt_of others hothers

end FileTree

namespace FileAction

open FileTree

variable {α β : Type} {tree next : FileTree}

/-! ### Whatever comes of an action -/

/-- An action that is followed by another one fails, or the other one does the rest. -/
theorem of_bind {action : FileAction α} {later : α → FileAction β} {result : Except FileError β}
    (h : (action >>= later) tree = (result, next)) :
  (∃ e, action tree = (.error e, next) ∧ result = .error e)
    ∨ ∃ a middle, action tree = (.ok a, middle) ∧ later a middle = (result, next)
  := by
  cases haction : action tree with
  | mk found middle =>
      cases found with
      | error e =>
          left
          rw [bind_of_error later haction] at h
          obtain ⟨rfl, rfl⟩ := Prod.mk.inj h
          use e
      | ok a =>
          right
          rw [bind_of_ok later haction] at h
          use a, middle

theorem orRemove_of_ok {path : String} {action : FileAction Unit}
    (h : action tree = (.ok (), next)) :
  orRemove path action tree = (.ok (), next)
  := by
  rw [orRemove, tryCatch_eq, ExceptT.tryCatch, ExceptT.mk, state_bind_eq, h]
  rfl

/-- An action fails with its failure, and a file is removed. -/
theorem of_orRemove_eq_error {path : String} {action : FileAction Unit} {e : FileError}
    (h : orRemove path action tree = (.error e, next)) :
  ∃ middle, action tree = (.error e, middle) ∧ next = (remove path middle).2
  := by
  rw [orRemove, tryCatch_eq, ExceptT.tryCatch, ExceptT.mk, state_bind_eq] at h
  cases haction : action tree with
  | mk found middle =>
      rw [haction] at h
      cases found with
      | ok u => cases h
      | error e' =>
          -- The removal itself may fail; its failure is dropped.
          cases hremove : remove path middle with
          | mk removed last =>
              have hhandler : (tryCatch (remove path) fun _ => pure () : FileAction Unit) middle
                  = (.ok (), last) := by
                rw [tryCatch_eq, ExceptT.tryCatch, ExceptT.mk, state_bind_eq, hremove]
                cases removed <;> rfl
              dsimp only at h
              rw [bind_of_ok _ hhandler] at h
              obtain ⟨he, rfl⟩ := Prod.mk.inj h
              obtain rfl := Except.error.inj he
              use middle, rfl
              rw [hremove]

/-- Removing a file takes it away or changes nothing. -/
theorem remove_eq_or_sets (hsound : tree.Sound) (path : String) :
  (remove path tree).2 = tree ∨ Sets (tree.namesOf path) none tree (remove path tree).2
  := by
  cases hremove : remove path tree with
  | mk removed last =>
      cases removed with
      | error e =>
          left
          apply (eq_of_remove_eq_error hremove).symm
      | ok u =>
          right
          apply (sets_of_remove hsound hremove).2

/-- Writing a file changes nothing if it fails. -/
theorem eq_of_write_eq_error {path : String} {bytes : List UInt8} {e : FileError}
    (h : write path bytes tree = (.error e, next)) :
  tree = next
  := by
  rcases of_bind h with ⟨e', hlook, -⟩ | ⟨names, middle, hlook, h⟩
  · apply congrArg Prod.snd hlook
  · obtain ⟨-, rfl⟩ := of_look_eq_ok hlook
    rw [get_bind] at h
    rcases hat : tree.at? names with _ | ⟨old⟩ | ⟨entries⟩
    · rw [hat] at h
      cases congrArg Prod.fst h
    · rw [hat] at h
      cases congrArg Prod.fst h
    · rw [hat] at h
      apply congrArg Prod.snd h

/-- A file can be written where there is no folder. -/
theorem exists_write {path : String} {names : List String} (hresolve : tree.resolve path = .ok names)
    (hfree : ¬ tree.IsFolderAt names) (bytes : List UInt8) :
  ∃ next, write path bytes tree = (.ok (), next)
  := by
  have hlook : look (·.resolve path) tree = (.ok names, tree) := by
    rw [look, hresolve]
  rw [write, bind_of_ok _ hlook, get_bind]
  rcases hat : tree.at? names with _ | ⟨old⟩ | ⟨entries⟩
  · use tree.alter names fun _ => some (.file bytes)
    rfl
  · use tree.alter names fun _ => some (.file bytes)
    rfl
  · cases hfree ⟨entries, hat⟩

/-- A file can be moved to where there is no folder. -/
theorem exists_move {source target : String} {start goal : List String} {bytes : List UInt8}
    (hstart : tree.resolve source = .ok start) (hfile : tree.file? start = some bytes)
    (hslash : target.toList.getLast? ≠ some '/') (hgoal : tree.resolve target = .ok goal)
    (hfree : ¬ tree.IsFolderAt goal) :
  ∃ next, move source target tree = (.ok (), next)
  := by
  have hlook : look (·.resolve source) tree = (.ok start, tree) := by
    rw [look, hstart]
  have hlook' : look (·.resolve target) tree = (.ok goal, tree) := by
    rw [look, hgoal]
  use (tree.alter start fun _ => none).alter goal fun _ => some (.file bytes)
  rw [move, bind_of_ok _ hlook, get_bind, at?_of_file? hfile]
  dsimp only
  rw [if_neg (by rwa [beq_iff_eq])]
  rw [bind_of_ok _ hlook', get_bind]
  rcases hat : tree.at? goal with _ | ⟨old⟩ | ⟨entries⟩
  · rfl
  · rfl
  · cases hfree ⟨entries, hat⟩

/-- Moving a file changes nothing if it fails. -/
theorem eq_of_move_eq_error {source target : String} {e : FileError}
    (h : move source target tree = (.error e, next)) :
  tree = next
  := by
  rcases of_bind h with ⟨e', hlook, -⟩ | ⟨start, middle, hlook, h⟩
  · apply congrArg Prod.snd hlook
  · obtain ⟨-, rfl⟩ := of_look_eq_ok hlook
    rw [get_bind] at h
    rcases hat : tree.at? start with _ | ⟨bytes⟩ | ⟨entries⟩
    · rw [hat] at h
      apply congrArg Prod.snd h
    · rw [hat] at h
      dsimp only at h
      by_cases hslash : (target.toList.getLast? == some '/') = true
      · rw [if_pos hslash] at h
        apply congrArg Prod.snd h
      · rw [if_neg hslash] at h
        rcases of_bind h with ⟨e', hlook', -⟩ | ⟨goal, middle, hlook', h⟩
        · apply congrArg Prod.snd hlook'
        · obtain ⟨-, rfl⟩ := of_look_eq_ok hlook'
          rw [get_bind] at h
          rcases hat' : tree.at? goal with _ | ⟨old⟩ | ⟨entries⟩
          · rw [hat'] at h
            cases congrArg Prod.fst h
          · rw [hat'] at h
            cases congrArg Prod.fst h
          · rw [hat'] at h
            apply congrArg Prod.snd h
    · rw [hat] at h
      apply congrArg Prod.snd h

/-! ### Folders -/

/-- One folder after the other is entered, and made before if it is not there. -/
theorem makeFolders_name (names : List String) {name : String} (hshort : name.utf8ByteSize ≤ maxName)
    (rest : List Path.Component) (tree : FileTree) :
  makeFolders names (.name name :: rest) tree
    = match tree.at? (names ++ [name]) with
      | some (.folder _) => makeFolders (names ++ [name]) rest tree
      | some (.file _) => (.error (if rest.isEmpty then .occupied else .notFolder), tree)
      | none =>
        makeFolders (names ++ [name]) rest (tree.alter (names ++ [name]) fun _ => some (.folder []))
  := by
  rw [makeFolders, if_neg (Nat.not_lt.mpr hshort)]
  dsimp only
  rw [get_bind]
  rcases tree.at? (names ++ [name]) with _ | ⟨bytes⟩ | ⟨entries⟩ <;> rfl

/-- Making folders changes no file, even if it stops on the way. -/
theorem grows_makeFolders (hsound : tree.Sound) {names : List String}
    (hnames : tree.IsFolderAt names) (components : List Path.Component) :
  Grows tree (makeFolders names components tree).2
  := by
  induction components generalizing names tree with
  | nil => apply Grows.refl hsound
  | cons component rest ih =>
      cases component with
      | root => apply ih hsound hsound.root
      | here => apply ih hsound hnames
      | up => apply ih hsound hnames.dropLast
      | name name =>
          by_cases hlong : FileTree.maxName < name.utf8ByteSize
          · rw [makeFolders, if_pos hlong]
            apply Grows.refl hsound
          · rw [makeFolders_name _ (Nat.not_lt.mp hlong)]
            rcases hat : tree.at? (names ++ [name]) with _ | ⟨bytes⟩ | ⟨entries⟩
            · obtain ⟨hkeeps, hfolder, hfiles⟩ := keeps_alter_folder hsound hnames hat
              apply Grows.trans ⟨hkeeps, hfiles⟩ (ih hkeeps.sound hfolder)
            · apply Grows.refl hsound
            · apply ih hsound ⟨entries, hat⟩

/-- Folders that are there already need not be made. -/
theorem makeFolders_of_follow {names front found : List String} {rest : List Path.Component}
    (hfollow : tree.follow names front = .ok found) (hfound : tree.IsFolderAt found) :
  makeFolders names (front.filterMap Path.component? ++ rest) tree = makeFolders found rest tree
  := by
  induction front generalizing names with
  | nil =>
      rw [follow] at hfollow
      rw [Except.ok.inj hfollow]
      rfl
  | cons piece front ih =>
      obtain ⟨-, hfollow⟩ := follow_cons_eq_ok.mp hfollow
      rw [List.filterMap_cons, Path.component?]
      simp only [Bool.or_eq_true, beq_iff_eq]
      split_ifs at hfollow ⊢
      · apply ih hfollow
      · apply ih hfollow
      · obtain ⟨hshort, hfollow⟩ := hfollow
        have hfolder : tree.IsFolderAt (names ++ [piece]) := by
          cases front with
          | nil =>
              rw [follow] at hfollow
              rwa [Except.ok.inj hfollow]
          | cons next rest => apply (follow_cons_eq_ok.mp hfollow).1
        obtain ⟨entries, hentries⟩ := hfolder
        have hat : tree.at? (names ++ [piece]) = some (.folder entries) := hentries
        rw [List.cons_append, makeFolders_name _ hshort, hat]
        apply ih hfollow

/-- Making folders below one that exists makes none but those folders, whatever comes of it. -/
theorem touches_of_makeFolders (hsound : tree.Sound) {names others : List String}
    (hnames : tree.IsFolderAt names) {touched : Set (List String)} {name : String}
    (hmem : names ++ others ++ [name] ∈ touched) {result : Except FileError Unit}
    (h : makeFolders names (others.map .name) tree = (result, next)) :
  Touches touched tree next
  := by
  induction others generalizing names tree with
  | nil =>
      obtain rfl : tree = next := congrArg Prod.snd h
      apply Touches.refl hsound
  | cons first rest ih =>
      have hrest : names ++ [first] ++ rest ++ [name] ∈ touched := by simpa using hmem
      rw [List.map_cons] at h
      by_cases hlong : FileTree.maxName < first.utf8ByteSize
      · rw [makeFolders, if_pos hlong] at h
        obtain rfl : tree = next := congrArg Prod.snd h
        apply Touches.refl hsound
      · rw [makeFolders_name _ (Nat.not_lt.mp hlong)] at h
        rcases hat : tree.at? (names ++ [first]) with _ | ⟨bytes⟩ | ⟨entries⟩
        · rw [hat] at h
          obtain ⟨hkeeps, hfolder, hfiles⟩ := keeps_alter_folder hsound hnames hat
          apply Touches.trans _ (ih hkeeps.sound hfolder hrest h)
          constructor
          · apply hkeeps
          · intro others _
            apply hfiles
          · intro others hother
            by_cases heq : others = names ++ [first]
            · right
              use names ++ [first] ++ rest ++ [name], hrest
              rw [heq]
              constructor
              · use rest ++ [name]
                simp
              · simp
            · left
              have hbare : FileNode.IsBare (some (.folder [])) := fun _ _ => rfl
              obtain ⟨-, hothers⟩ :=
                at?_alter hsound hnames (not_isFolderAt_of_at?_eq_none hat) hbare
              apply (hothers others heq).2.mp hother
        · rw [hat] at h
          obtain rfl : tree = next := congrArg Prod.snd h
          apply Touches.refl hsound
        · rw [hat] at h
          apply ih hsound ⟨entries, hat⟩ hrest h

/-- Folders can be made if there is no file on the way. -/
theorem exists_makeFolders (hsound : tree.Sound) {names others : List String}
    (hnames : tree.IsFolderAt names) (hshort : ∀ other ∈ others, other.utf8ByteSize ≤ maxName)
    (hfree : ∀ front, front <+: names ++ others → tree.file? front = none) :
  ∃ next, makeFolders names (others.map .name) tree = (.ok (), next)
    ∧ next.IsFolderAt (names ++ others)
  := by
  induction others generalizing names tree with
  | nil =>
      use tree, rfl
      rwa [List.append_nil]
  | cons first rest ih =>
      obtain ⟨hfirst, hshort⟩ := List.forall_mem_cons.mp hshort
      have hnamesFirst : names ++ [first] ++ rest = names ++ first :: rest := by simp
      rw [← hnamesFirst] at hfree ⊢
      rw [List.map_cons, makeFolders_name _ hfirst]
      rcases hat : tree.at? (names ++ [first]) with _ | ⟨bytes⟩ | ⟨entries⟩
      · obtain ⟨hkeeps, hfolder, hfiles⟩ := keeps_alter_folder hsound hnames hat
        apply ih hkeeps.sound hfolder hshort
        intro front hfront
        rw [hfiles]
        apply hfree front hfront
      · have hfile := hfree (names ++ [first]) (List.prefix_append _ _)
        rw [file?, hat] at hfile
        cases hfile
      · apply ih hsound ⟨entries, hat⟩ hshort hfree

end FileAction

end Scrutiny
