import Scrutiny.Files.Atomic
import Scrutiny.Proofs.Files.Attempt

/-!
# What interrupted writes leave behind

The calls of an atomic write, one after the other, do what the write does.  Wherever they are
interrupted, the file has all of its old bytes or all of the new ones, and no other file but the
temporary one has changed.
-/

namespace Scrutiny

open FileAction

variable {tree next : FileTree} {path : String} {bytes : List UInt8}

/-! ### The calls of a write -/

namespace FileCall

theorem performAll_cons (call : FileCall) (rest : List FileCall) :
  performAll (call :: rest) = (call.perform >>= fun _ => performAll rest)
  := rfl

theorem of_performAll_eq_ok {call : FileCall} {rest : List FileCall}
    (h : performAll (call :: rest) tree = (.ok (), next)) :
  ∃ middle, call.perform tree = (.ok (), middle) ∧ performAll rest middle = (.ok (), next)
  := by
  rw [performAll_cons] at h
  obtain ⟨_, middle, hcall, hrest⟩ := bind_eq_ok h
  use middle, hcall, hrest

/-- The calls that fill the temporary file and move it do what the last steps of a write do. -/
theorem performAll_fill_move :
  performAll [.write (Path.temporary path) bytes, .move (Path.temporary path) path] tree
      = (.ok (), next)
    ↔ (do
        orRemove (Path.temporary path) (FileAction.write (Path.temporary path) bytes)
        orRemove (Path.temporary path) (FileAction.move (Path.temporary path) path)) tree
      = (.ok (), next)
  := by
  constructor
  · intro h
    obtain ⟨written, hfill, h⟩ := of_performAll_eq_ok h
    obtain ⟨moved, hmove, h⟩ := of_performAll_eq_ok h
    obtain ⟨-, rfl⟩ := of_pure_eq_ok h
    have hfill : FileAction.write (Path.temporary path) bytes tree = (.ok (), written) := hfill
    have hmove : FileAction.move (Path.temporary path) path written = (.ok (), moved) := hmove
    rw [bind_of_ok _ (orRemove_of_ok hfill), orRemove_of_ok hmove]
  · intro h
    obtain ⟨_, written, hfill, hmove⟩ := bind_eq_ok h
    rw [performAll_cons, perform, bind_of_ok _ (of_orRemove_eq_ok hfill), performAll_cons, perform,
      bind_of_ok _ (of_orRemove_eq_ok hmove)]
    rfl

/-- Carrying out the calls of a write is writing the file as a whole. -/
theorem performAll_ofWrite :
  performAll (ofWrite path bytes) tree = (.ok (), next)
    ↔ writeAtomic path bytes tree = (.ok (), next)
  := by
  rw [ofWrite, writeAtomic]
  cases hparent : Path.parent? path with
  | none => apply performAll_fill_move
  | some folder =>
      dsimp only
      by_cases hfolder : (folder != "") = true
      · rw [if_pos hfolder, if_pos hfolder, List.singleton_append, performAll_cons]
        constructor
        · intro h
          obtain ⟨_, ready, hmake, h⟩ := bind_eq_ok h
          rw [perform] at hmake
          rw [bind_of_ok _ hmake]
          apply performAll_fill_move.mp h
        · intro h
          obtain ⟨_, ready, hmake, h⟩ := bind_eq_ok h
          rw [perform, bind_of_ok _ hmake]
          apply performAll_fill_move.mpr h
      · rw [if_neg hfolder, if_neg hfolder]
        apply performAll_fill_move

theorem interrupted_of_fill_move {e : FileError}
    (h : (do
      orRemove (Path.temporary path) (FileAction.write (Path.temporary path) bytes)
      orRemove (Path.temporary path) (FileAction.move (Path.temporary path) path)) tree
      = (.error e, next)) :
  Interrupted (Path.temporary path)
    [.write (Path.temporary path) bytes, .move (Path.temporary path) path] tree next
  := by
  rcases of_bind h with ⟨e', hfill, -⟩ | ⟨_, written, hfill, hmove⟩
  · obtain ⟨middle, hwrite, rfl⟩ := of_orRemove_eq_error hfill
    obtain rfl := eq_of_write_eq_error hwrite
    apply Interrupted.cleaned (Leaves.nothing _ _)
  · obtain ⟨middle, hfail, rfl⟩ := of_orRemove_eq_error hmove
    obtain rfl := eq_of_move_eq_error hfail
    apply Interrupted.later (of_orRemove_eq_ok hfill)
    apply Interrupted.cleaned (Leaves.nothing _ _)

end FileCall

/-- A write that fails because of what it finds is one of those that are interrupted. -/
theorem FileTree.writeInterrupted_of_writeAtomic {e : FileError}
    (h : writeAtomic path bytes tree = (.error e, next)) :
  tree.WriteInterrupted path bytes next
  := by
  rw [WriteInterrupted, FileCall.ofWrite]
  rw [writeAtomic] at h
  cases hparent : Path.parent? path with
  | none =>
      rw [hparent] at h
      apply FileCall.interrupted_of_fill_move h
  | some folder =>
      rw [hparent] at h
      dsimp only at h ⊢
      by_cases hfolder : (folder != "") = true
      · rw [if_pos hfolder] at h ⊢
        rcases of_bind h with ⟨e', hmake, -⟩ | ⟨⟨⟩, ready, hmake, h⟩
        · have hleaves := FileCall.Leaves.folders folder (Path.components folder).length tree
          rw [List.take_length] at hleaves
          have hnext : (makeFolders tree.here (Path.components folder) tree).2 = next :=
            congrArg Prod.snd hmake
          rw [hnext] at hleaves
          apply FileCall.Interrupted.within hleaves
        · have hcall : (FileCall.makeFolders folder).perform tree = (.ok (), ready) := hmake
          apply FileCall.Interrupted.later hcall
          apply FileCall.interrupted_of_fill_move h
      · rw [if_neg hfolder] at h ⊢
        apply FileCall.interrupted_of_fill_move h

/-! ### What is left behind -/

namespace FileTree

/-- The file of a path has all of its old bytes or all of the new ones, and no other file but the
temporary one has changed. -/
structure OldOrNew (path : String) (bytes : List UInt8) (tree next : FileTree) : Prop
    extends tree.Keeps next where
  /-- All files but it and the temporary one are the same. -/
  file?_eq : ∀ names, names ≠ tree.namesOf path → names ≠ tree.namesOf (Path.temporary path) →
    next.file? names = tree.file? names
  /-- The file itself. -/
  old_or_new : next.file? (tree.namesOf path) = tree.file? (tree.namesOf path)
    ∨ next.file? (tree.namesOf path) = some bytes

namespace OldOrNew

theorem of_grows (h : Grows tree next) :
  OldOrNew path bytes tree next
  := by
  use h.toKeeps
  · intro names _ _
    apply h.file?_eq
  · left
    apply h.file?_eq

theorem trans {last : FileTree} (h : OldOrNew path bytes tree next)
    (h' : OldOrNew path bytes next last) :
  OldOrNew path bytes tree last
  := by
  have hfile := h'.file?_eq
  have hself := h'.old_or_new
  rw [h.namesOf_eq, h.namesOf_eq] at hfile
  rw [h.namesOf_eq] at hself
  use h.toKeeps.trans h'.toKeeps
  · intro names hpath htemporary
    rw [hfile names hpath htemporary, h.file?_eq names hpath htemporary]
  · rcases hself with hself | hself
    · rw [hself]
      apply h.old_or_new
    · right
      apply hself

theorem of_sets_temporary (hne : tree.namesOf (Path.temporary path) ≠ tree.namesOf path)
    {bytes? : Option (List UInt8)} (h : Sets (tree.namesOf (Path.temporary path)) bytes? tree next) :
  OldOrNew path bytes tree next
  := by
  use h.toKeeps
  · intro names _ htemporary
    apply h.file?_ne names htemporary
  · left
    apply h.file?_ne _ hne.symm

theorem of_remove (hsound : tree.Sound)
    (hne : tree.namesOf (Path.temporary path) ≠ tree.namesOf path) :
  OldOrNew path bytes tree (remove (Path.temporary path) tree).2
  := by
  rcases remove_eq_or_sets hsound (Path.temporary path) with heq | hsets
  · rw [heq]
    apply of_grows (.refl hsound)
  · apply of_sets_temporary hne hsets

theorem of_write (hsound : tree.Sound)
    (hne : tree.namesOf (Path.temporary path) ≠ tree.namesOf path) (some : List UInt8) :
  OldOrNew path bytes tree (write (Path.temporary path) some tree).2
  := by
  cases hwrite : write (Path.temporary path) some tree with
  | mk result last =>
      cases result with
      | error e =>
          rw [← eq_of_write_eq_error hwrite]
          apply of_grows (.refl hsound)
      | ok u => apply of_sets_temporary hne (sets_of_write hsound hwrite).2

theorem of_move (hsound : tree.Sound)
    (hne : tree.namesOf (Path.temporary path) ≠ tree.namesOf path)
    (hfile : tree.file? (tree.namesOf (Path.temporary path)) = some bytes)
    (h : move (Path.temporary path) path tree = (.ok (), next)) :
  OldOrNew path bytes tree next
  := by
  obtain ⟨found, moved, hfound, -, htaken, hput⟩ := exists_sets_of_move hsound h
  obtain rfl := Option.some.inj (hfile.symm.trans hfound)
  apply trans (of_sets_temporary hne htaken)
  rw [← htaken.namesOf_eq] at hput
  use hput.toKeeps
  · intro names hpath _
    apply hput.file?_ne names hpath
  · right
    apply hput.file?_self

end OldOrNew

/-- What an interrupted call on the temporary file leaves of the file itself. -/
theorem oldOrNew_of_leaves (hsound : tree.Sound)
    (hne : tree.namesOf (Path.temporary path) ≠ tree.namesOf path) {all : List UInt8}
    (h : (FileCall.write (Path.temporary path) all).Leaves tree next
      ∨ (FileCall.move (Path.temporary path) path).Leaves tree next) :
  OldOrNew path bytes tree next
  := by
  rcases h with h | h
  · cases h with
    | nothing => apply OldOrNew.of_grows (.refl hsound)
    | bytes => apply OldOrNew.of_write hsound hne
  · cases h with
    | nothing => apply OldOrNew.of_grows (.refl hsound)

theorem oldOrNew_of_interrupted (hsound : tree.Sound)
    (hne : tree.namesOf (Path.temporary path) ≠ tree.namesOf path)
    (h : FileCall.Interrupted (Path.temporary path)
      [.write (Path.temporary path) bytes, .move (Path.temporary path) path] tree next) :
  OldOrNew path bytes tree next
  := by
  have hclean {tree middle : FileTree}
      (hne : tree.namesOf (Path.temporary path) ≠ tree.namesOf path)
      (hmiddle : OldOrNew path bytes tree middle) :
      OldOrNew path bytes tree (remove (Path.temporary path) middle).2 := by
    apply hmiddle.trans (OldOrNew.of_remove hmiddle.sound _)
    rwa [hmiddle.namesOf_eq, hmiddle.namesOf_eq]
  cases h with
  | stopped => apply OldOrNew.of_grows (.refl hsound)
  | within h => apply oldOrNew_of_leaves hsound hne (.inl h)
  | cleaned h => apply hclean hne (oldOrNew_of_leaves hsound hne (.inl h))
  | later hfill hrest =>
      obtain ⟨-, hwritten⟩ := sets_of_write hsound hfill
      apply (OldOrNew.of_sets_temporary hne hwritten).trans
      rw [← hwritten.namesOf_eq, ← hwritten.namesOf_eq] at hne
      cases hrest with
      | stopped => apply OldOrNew.of_grows (.refl hwritten.sound)
      | within h => apply @oldOrNew_of_leaves _ _ _ _ hwritten.sound hne bytes (.inr h)
      | cleaned h =>
          apply hclean hne (@oldOrNew_of_leaves _ _ _ _ hwritten.sound hne bytes (.inr h))
      | later hmove hlast =>
          have hfile := hwritten.file?_self
          rw [← hwritten.namesOf_eq] at hfile
          have hmoved := OldOrNew.of_move hwritten.sound hne hfile hmove
          cases hlast
          apply hmoved

/-- Wherever a write is interrupted, the file has all of its old bytes or all of the new ones. -/
theorem WriteInterrupted.oldOrNew (h : tree.WriteInterrupted path bytes next) (hsound : tree.Sound)
    (hne : tree.namesOf (Path.temporary path) ≠ tree.namesOf path) :
  OldOrNew path bytes tree next
  := by
  rw [WriteInterrupted, FileCall.ofWrite] at h
  cases hparent : Path.parent? path with
  | none =>
      rw [hparent] at h
      apply oldOrNew_of_interrupted hsound hne h
  | some folder =>
      rw [hparent] at h
      dsimp only at h
      by_cases hfolder : (folder != "") = true
      · rw [if_pos hfolder] at h
        have hfolders {middle : FileTree} (h : (FileCall.makeFolders folder).Leaves tree middle) :
            Grows tree middle := by
          cases h with
          | nothing => apply Grows.refl hsound
          | folders => apply grows_makeFolders hsound hsound.here
        cases h with
        | stopped => apply OldOrNew.of_grows (.refl hsound)
        | within h => apply OldOrNew.of_grows (hfolders h)
        | cleaned h =>
            have hgrows := hfolders h
            apply (OldOrNew.of_grows hgrows).trans (OldOrNew.of_remove hgrows.sound _)
            rwa [hgrows.namesOf_eq, hgrows.namesOf_eq]
        | later hmake hrest =>
            have hgrows := (grows_of_createFolders hsound hmake).1
            apply (OldOrNew.of_grows hgrows).trans (oldOrNew_of_interrupted hgrows.sound _ hrest)
            rwa [hgrows.namesOf_eq, hgrows.namesOf_eq]
      · rw [if_neg hfolder] at h
        apply oldOrNew_of_interrupted hsound hne h

end FileTree

end Scrutiny
