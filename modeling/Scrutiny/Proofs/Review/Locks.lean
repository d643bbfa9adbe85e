import Scrutiny.Proofs.Files.Attempt
import Scrutiny.Proofs.Files.Spared
import Scrutiny.Proofs.Review.Actions

/-!
# Locks in files

The lock of a chunk, of a store or of a run is a file in a folder.  Making both again changes nothing, so
that a lock can be taken any number of times.
-/

/-!
## Actions that were done before

Making a folder that was made before changes nothing, and neither does making sure that a file exists
that is still there.
-/

namespace Scrutiny.FileAction

variable {tree next later : FileTree} {path : String}

/-- A folder that was made need not be made again. -/
theorem createFolders_again (hsound : tree.Sound) (h : createFolders path tree = (.ok (), next))
    (hkeeps : next.Keeps later) :
  createFolders path later = (.ok (), later)
  := by
  obtain ⟨hgrows, hfollow, hfolder⟩ := grows_of_createFolders hsound h
  have hfollow' := FileTree.follow_of_keeps hkeeps hfollow
  rw [createFolders, get_bind, makeFolders_components, hkeeps.here_eq, hgrows.here_eq,
    ← List.append_nil ((Path.pieces path).filterMap Path.component?),
    makeFolders_of_follow hfollow' (hkeeps.isFolderAt _ hfolder), makeFolders]
  rfl

/-- What happens if a file is made sure to exist: it was there, or it is made. -/
theorem of_touch_eq_ok (hsound : tree.Sound) (h : touch path tree = (.ok (), next)) :
  tree.resolve path = .ok (tree.namesOf path) ∧ tree.Keeps next
    ∧ ∃ bytes, next.file? (tree.namesOf path) = some bytes
  := by
  obtain ⟨names, middle, hlook, h⟩ := bind_eq_ok h
  obtain ⟨hresolve, rfl⟩ := of_look_eq_ok hlook
  obtain ⟨rfl, hfolder⟩ := FileTree.of_resolve_eq_ok hsound hresolve
  rw [get_bind] at h
  use hresolve
  cases hat : tree.at? (tree.namesOf path) with
  | none =>
      rw [hat] at h
      obtain rfl := of_change_eq_ok h
      have hsets := FileTree.sets_alter hsound hfolder (FileTree.not_isFolderAt_of_at?_eq_none hat) (some [])
      exact ⟨hsets.toKeeps, [], hsets.file?_self⟩
  | some node =>
      rw [hat] at h
      cases node with
      | folder entries => cases throw_ne_ok h
      | file bytes =>
          obtain ⟨-, rfl⟩ := of_pure_eq_ok h
          refine ⟨.refl hsound, bytes, ?_⟩
          rw [FileTree.file?, hat]
          rfl

/-- A file that was made sure to exist, and that was spared since, need not be made again. -/
theorem touch_again {spared : Set (List String)} (hsound : tree.Sound)
    (h : touch path tree = (.ok (), next)) (hspares : FileTree.Spares spared next later)
    (hpath : tree.namesOf path ∈ spared) :
  touch path later = (.ok (), later)
  := by
  obtain ⟨hresolve, hkeeps, bytes, hbytes⟩ := of_touch_eq_ok hsound h
  have hresolve' := FileTree.resolve_of_keeps (hkeeps.trans hspares.toKeeps) hresolve
  rw [← hspares.file?_eq _ hpath, FileTree.file?] at hbytes
  have hlook : look (·.resolve path) later = (.ok (tree.namesOf path), later) := by
    rw [look, hresolve']
  rw [touch, bind_of_ok _ hlook, get_bind]
  obtain ⟨node, hnode, hfile⟩ := Option.bind_eq_some_iff.mp hbytes
  cases node with
  | folder entries => cases hfile
  | file found =>
      rw [hnode]
      rfl

end Scrutiny.FileAction

/-!
## Locks in files

Taking a lock makes its file and the folder that it stands in.  It changes nothing if the lock was taken
before.
-/

namespace Scrutiny

open Scrutiny.Path

variable {μ ν : Type} {world next : World μ} {later : World ν} {path : String}

/-- A lock cannot be taken if its folder or its file cannot be made. -/
theorem of_takeLock_eq_error {e : ReviewError} (h : takeLock path world = (.error e, next)) :
  (∃ cause, e = .files cause) ∨ ∃ reason, e = .lock reason
  := by
  rw [takeLock] at h
  cases hparent : parent? path with
  | none =>
      rw [hparent] at h
      obtain ⟨cause, -, -, rfl, -⟩ := ReviewAction.of_onFiles_eq_error h
      exact .inr ⟨_, rfl⟩
  | some parent =>
      rw [hparent] at h
      rcases ReviewAction.of_bind h with ⟨e', hcreate, heq⟩ | ⟨_, middle, -, htouch⟩
      · obtain ⟨cause, -, -, rfl, -⟩ := ReviewAction.of_onFiles_eq_error hcreate
        exact .inl ⟨cause, Except.error.inj heq⟩
      · obtain ⟨cause, -, -, rfl, -⟩ := ReviewAction.of_onFiles_eq_error htouch
        exact .inr ⟨_, rfl⟩

section

variable (hsound : world.files.Sound) (h : takeLock path world = (.ok (), next))

include hsound h

/-- What happens if a lock is taken: its folder is made if there is one, and the lock is made sure to
exist. -/
theorem of_takeLock_eq_ok :
  ∃ middle files, FileTree.Keeps world.files middle ∧ FileAction.touch path middle = (.ok (), files)
    ∧ next = { world with files }
    ∧ ∀ parent, parent? path = some parent →
      FileAction.createFolders parent world.files = (.ok (), middle)
  := by
  rw [takeLock] at h
  cases hparent : parent? path with
  | none =>
      rw [hparent] at h
      obtain ⟨files, hfiles, rfl⟩ := ReviewAction.of_onFiles_eq_ok h
      refine ⟨world.files, files, .refl hsound, hfiles, rfl, ?_⟩
      intro parent hother
      cases hother
  | some parent =>
      rw [hparent] at h
      obtain ⟨_, middle, hcreate, htouch⟩ := ReviewAction.of_bind_eq_ok h
      obtain ⟨folders, hfolders, rfl⟩ := ReviewAction.of_onFiles_eq_ok hcreate
      obtain ⟨files, hfiles, rfl⟩ := ReviewAction.of_onFiles_eq_ok htouch
      refine ⟨folders, files, (FileAction.grows_of_createFolders hsound hfolders).1.toKeeps, hfiles, rfl, ?_⟩
      intro other hother
      rw [← Option.some.inj hother]
      apply hfolders

theorem resolve_of_takeLock :
  next.files.resolve path = .ok (next.files.namesOf path)
  := by
  obtain ⟨middle, files, hkeeps, htouch, rfl, -⟩ := of_takeLock_eq_ok hsound h
  obtain ⟨hresolve, hkeeps', -⟩ := FileAction.of_touch_eq_ok hkeeps.sound htouch
  rw [hkeeps'.namesOf_eq]
  apply FileTree.resolve_of_keeps hkeeps' hresolve

/-- A lock that was taken is taken again without any change, if its file was left alone. -/
theorem takeLock_again {spared : Set (List String)}
    (hspares : FileTree.Spares spared next.files later.files) (hpath : world.files.namesOf path ∈ spared) :
  takeLock path later = (.ok (), later)
  := by
  obtain ⟨middle, files, hkeeps, htouch, rfl, hfolders⟩ := of_takeLock_eq_ok hsound h
  obtain ⟨-, hkeeps', -⟩ := FileAction.of_touch_eq_ok hkeeps.sound htouch
  have hagain : ReviewAction.onFiles (fun e => ReviewError.lock ("open " ++ path ++ ": " ++ e.message))
      (FileAction.touch path) later = (.ok (), later) := by
    rw [ReviewAction.onFiles, FileAction.touch_again hkeeps.sound htouch hspares]
    · rfl
    · rw [hkeeps.namesOf_eq]
      apply hpath
  rw [takeLock]
  cases hparent : parent? path with
  | none => apply hagain
  | some parent =>
      have hcreate : ReviewAction.onFiles ReviewError.files (FileAction.createFolders parent) later
          = (.ok (), later) := by
        rw [ReviewAction.onFiles, FileAction.createFolders_again hsound (hfolders parent hparent)
          (hkeeps'.trans hspares.toKeeps)]
        rfl
      dsimp only
      rw [ReviewAction.bind_of_ok _ hcreate]
      apply hagain

end

end Scrutiny
