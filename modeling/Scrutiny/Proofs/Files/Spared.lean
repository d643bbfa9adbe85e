import Scrutiny.Proofs.Files.Interruption
import Scrutiny.Proofs.Files.Names

/-!
# Files that are spared

An action spares the files under some names if it leaves them as they were, whatever comes of it.
Actions that are made of others spare what all of these spare.
-/

namespace Scrutiny

namespace FileTree

variable {tree next last : FileTree} {spared : Set (List String)}

/-- The files under some names are as they were, and no folder is lost. -/
structure Spares (spared : Set (List String)) (tree next : FileTree) : Prop
    extends tree.Keeps next where
  /-- The files under the names. -/
  file?_eq : ∀ names ∈ spared, next.file? names = tree.file? names

theorem Spares.refl (h : tree.Sound) (spared : Set (List String)) :
  Spares spared tree tree
  := ⟨.refl h, fun _ _ => rfl⟩

theorem Spares.trans (h : Spares spared tree next) (h' : Spares spared next last) :
  Spares spared tree last
  := by
  use h.toKeeps.trans h'.toKeeps
  intro names hnames
  rw [h'.file?_eq names hnames, h.file?_eq names hnames]

theorem Spares.mono {fewer : Set (List String)} (h : Spares spared tree next)
    (hsubset : fewer ⊆ spared) :
  Spares fewer tree next
  := ⟨h.toKeeps, fun names hnames => h.file?_eq names (hsubset hnames)⟩

theorem Sets.spares {names : List String} {bytes? : Option (List UInt8)}
    (h : Sets names bytes? tree next) (hnames : names ∉ spared) :
  Spares spared tree next
  := by
  use h.toKeeps
  intro others hothers
  apply h.file?_ne
  rintro rfl
  apply hnames hothers

theorem OldOrNew.spares {path : String} {bytes : List UInt8} (h : OldOrNew path bytes tree next)
    (hpath : tree.namesOf path ∉ spared) (htemporary : tree.namesOf (Path.temporary path) ∉ spared) :
  Spares spared tree next
  := by
  use h.toKeeps
  intro names hnames
  apply h.file?_eq
  · rintro rfl
    apply hpath hnames
  · rintro rfl
    apply htemporary hnames

end FileTree

namespace FileAction

variable {α β : Type} {tree next : FileTree} {spared : Set (List String)}

/-- Writing a file leaves the old bytes or the new ones, and the new ones if it succeeds. -/
theorem oldOrNew_of_writeAtomic (hsound : tree.Sound) {path name : String}
    (hname : Path.fileName? path = some name) {bytes : List UInt8} {result : Except FileError Unit}
    (h : writeAtomic path bytes tree = (result, next)) :
  FileTree.OldOrNew path bytes tree next ∧ (result = .ok () → next.read path = .ok bytes)
  := by
  cases result with
  | error e =>
      use (FileTree.writeInterrupted_of_writeAtomic h).oldOrNew hsound (tree.namesOf_temporary_ne hname)
      intro hok
      cases hok
  | ok u =>
      have hreplaces := replaces_of_writeAtomic hsound h
      use ⟨hreplaces.toKeeps, hreplaces.file?_eq, .inr ?_⟩, fun _ => hreplaces.read_eq
      obtain ⟨names, hresolve, hbytes⟩ := FileTree.read_eq_ok_iff.mp hreplaces.read_eq
      obtain ⟨rfl, -⟩ := FileTree.of_resolve_eq_ok hreplaces.sound hresolve
      rw [hreplaces.namesOf_eq] at hbytes
      apply hbytes

/-- What is left if a file is removed that may be there is what is left if it is removed. -/
theorem snd_removeIfThere (path : String) (tree : FileTree) :
  (removeIfThere path tree).2 = (remove path tree).2
  := by
  have hremove : ((remove path >>= fun _ => Pure.pure true : FileAction Bool) tree).2
      = (remove path tree).2 := by
    rcases haction : remove path tree with ⟨e | a, middle⟩
    · rw [bind_of_error _ haction]
    · rw [bind_of_ok _ haction]
      rfl
  rw [← hremove, FileAction.removeIfThere, tryCatch_eq, ExceptT.tryCatch, ExceptT.mk, state_bind_eq]
  rcases (remove path >>= fun _ => Pure.pure true : FileAction Bool) tree with ⟨e | a, middle⟩
  · dsimp only
    split <;> rfl
  · rfl

theorem spares_removeIfThere (hsound : tree.Sound) {path : String} (hpath : tree.namesOf path ∉ spared) :
  FileTree.Spares spared tree (removeIfThere path tree).2
  := by
  rw [snd_removeIfThere]
  rcases remove_eq_or_sets hsound path with heq | hsets
  · rw [heq]
    apply FileTree.Spares.refl hsound
  · apply hsets.spares hpath

/-- An action leaves the files under some names as they were, whatever comes of it. -/
def Spares (spared : Set (List String)) (action : FileAction α) : Prop :=
  ∀ tree : FileTree, tree.Sound → FileTree.Spares spared tree (action tree).2

namespace Spares

theorem pure (a : α) :
  Spares spared (pure a)
  := fun _ hsound => .refl hsound spared

theorem bind {action : FileAction α} {later : α → FileAction β} (h : Spares spared action)
    (hlater : ∀ a, Spares spared (later a)) :
  Spares spared (action >>= later)
  := by
  intro tree hsound
  have hfirst := h tree hsound
  rcases haction : action tree with ⟨e | a, middle⟩
  · rw [haction] at hfirst
    rw [bind_of_error later haction]
    apply hfirst
  · rw [haction] at hfirst
    rw [bind_of_ok later haction]
    apply hfirst.trans (hlater a middle hfirst.sound)

theorem get_bind {later : FileTree → FileAction β} (h : ∀ tree, Spares spared (later tree)) :
  Spares spared (get >>= later)
  := by
  intro tree hsound
  rw [FileAction.get_bind]
  apply h tree tree hsound

theorem writeAtomic {path name : String} (hname : Path.fileName? path = some name)
    (hpath : ∀ tree : FileTree, tree.namesOf path ∉ spared)
    (htemporary : ∀ tree : FileTree, tree.namesOf (Path.temporary path) ∉ spared)
    (bytes : List UInt8) :
  Spares spared (writeAtomic path bytes)
  := by
  intro tree hsound
  apply (oldOrNew_of_writeAtomic hsound hname rfl).1.spares (hpath tree) (htemporary tree)

theorem removeIfThere {path : String} (hpath : ∀ tree : FileTree, tree.namesOf path ∉ spared) :
  Spares spared (removeIfThere path)
  := fun tree hsound => spares_removeIfThere hsound (hpath tree)

theorem createFolders (path : String) :
  Spares spared (createFolders path)
  := by
  intro tree hsound
  have hgrows := grows_makeFolders hsound hsound.here (Path.components path)
  exact ⟨hgrows.toKeeps, fun names _ => hgrows.file?_eq names⟩

theorem touch {path : String} (hpath : ∀ tree : FileTree, tree.namesOf path ∉ spared) :
  Spares spared (touch path)
  := by
  intro tree hsound
  have hsame : FileTree.Spares spared tree tree := .refl hsound spared
  cases hresolve : tree.resolve path with
  | error e =>
      have hlook : FileAction.look (·.resolve path) tree = (.error e, tree) := by
        rw [look, hresolve]
      rw [FileAction.touch, bind_of_error _ hlook]
      apply hsame
  | ok names =>
      have hlook : FileAction.look (·.resolve path) tree = (.ok names, tree) := by
        rw [look, hresolve]
      obtain ⟨rfl, hfolder⟩ := FileTree.of_resolve_eq_ok hsound hresolve
      rw [FileAction.touch, bind_of_ok _ hlook, FileAction.get_bind]
      cases hat : tree.at? (tree.namesOf path) with
      | none =>
          have hnew : ¬ tree.IsFolderAt (tree.namesOf path) :=
            FileTree.not_isFolderAt_of_at?_eq_none hat
          apply (FileTree.sets_alter hsound hfolder hnew (some [])).spares (hpath tree)
      | some node => cases node <;> exact hsame

end Spares

end FileAction

end Scrutiny
