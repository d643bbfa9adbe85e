import Scrutiny.Proofs.Rationale.Extraction
import Scrutiny.Proofs.Review.Accounting
import Scrutiny.Proofs.Review.Locks

/-!
# Extractions that are taken up again

An extraction that ends at a file has saved what was extracted from the files before it, and nothing else.
One that fails nowhere leaves nothing to do: another one asks nobody and changes nothing.
-/

namespace Scrutiny.Session

open Scrutiny.Path OrderedAction RationaleStore

variable {μ ν : Type} {session : Session μ} {root storePath : String} {force : Bool}
  {progress : RationaleProgress} {state next : RunState μ} {files : List FileRationale}

/-! ### Runs over files -/

variable (session root storePath force) in
/-- The chunks of some files are explained, one file after the other. -/
inductive Extracts : RationaleProgress → RunState μ → List FileRationale → RunState μ → Prop where
  /-- There are no files. -/
  | nil {progress : RationaleProgress} {state : RunState μ} : Extracts progress state [] state
  /-- One file comes before the others. -/
  | cons {progress : RationaleProgress} {state middle next : RunState μ} {file : FileRationale}
    {files : List FileRationale}
    (hexplains : Explains session root storePath force progress state file middle)
    (hrest : Extracts (progress.note file) middle files next) :
    Extracts progress state (file :: files) next

/-- A run over files ends when all are finished, or at one of them. -/
theorem of_foldlM_explainFileInOrder {paths : List String} {result : Except ReviewError RationaleProgress}
    (h : paths.foldlM (session.explainFileInOrder root storePath force) progress state
      = some (result, next)) :
  (∃ files, paths = files.map (·.path) ∧ result = .ok (files.foldl RationaleProgress.note progress)
      ∧ Extracts session root storePath force progress state files next)
    ∨ ∃ files path back e middle, paths = files.map (·.path) ++ path :: back ∧ result = .error e
      ∧ Extracts session root storePath force progress state files middle
      ∧ Breaks session root storePath force (files.foldl RationaleProgress.note progress) middle path e next
  := by
  induction paths generalizing progress state with
  | nil =>
      obtain ⟨rfl, rfl⟩ := of_pure h
      left
      exact ⟨[], rfl, rfl, .nil⟩
  | cons first rest ih =>
      rw [List.foldlM_cons] at h
      rcases of_bind h with ⟨e, hfirst, rfl⟩ | ⟨later, middle, hfirst, hlater⟩
      · rcases of_explainFileInOrder hfirst with ⟨_, -, hresult, -⟩ | ⟨e', hresult, hbreaks⟩
        · cases hresult
        · obtain rfl := Except.error.inj hresult
          right
          exact ⟨[], first, rest, e, state, rfl, rfl, .nil, hbreaks⟩
      · rcases of_explainFileInOrder hfirst with ⟨file, rfl, hresult, hexplains⟩ | ⟨e', hresult, -⟩
        · obtain rfl := Except.ok.inj hresult
          rcases ih hlater with
              ⟨files, rfl, rfl, hrest⟩
            | ⟨files, path, back, e, last, rfl, rfl, hrest, hbreaks⟩
          · left
            exact ⟨file :: files, rfl, rfl, .cons hexplains hrest⟩
          · right
            exact ⟨file :: files, path, back, e, last, rfl, rfl, .cons hexplains hrest, hbreaks⟩
        · cases hresult

/-- The progress after some files has their entries. -/
theorem store_foldl_note (files : List FileRationale) (progress : RationaleProgress) :
  (files.foldl RationaleProgress.note progress).store
    = (files.flatMap (·.entries)).foldl RationaleStore.insert progress.store
  := by
  induction files generalizing progress with
  | nil => rfl
  | cons file files ih =>
      rw [List.foldl_cons, ih, List.flatMap_cons, List.foldl_append]
      rfl

theorem failed_foldl_note (files : List FileRationale) (progress : RationaleProgress) :
  (files.foldl RationaleProgress.note progress).failed = progress.failed + (files.map (·.failed)).sum
  := by
  induction files generalizing progress with
  | nil => rfl
  | cons file files ih =>
      rw [List.foldl_cons, ih, List.map_cons, List.sum_cons, ← Nat.add_assoc]
      rfl

section

variable {folder project : String} (hsound : state.1.files.Sound)

include hsound

theorem spares_of_extracts
    (h : Extracts session root (pathFor folder project) force progress state files next) :
  FileTree.Spares (Sources.sourceNames ∪ lockNames) state.1.files next.1.files
  := by
  induction h with
  | nil => apply FileTree.Spares.refl hsound
  | cons hexplains hrest ih =>
      have hspares := spares_of_explains hsound hexplains
      apply hspares.trans (ih hspares.sound)

theorem onDisk_of_extracts
    (h : Extracts session root (pathFor folder project) force progress state files next)
    (hkept : onDisk state.1.files (pathFor folder project) = progress.store) :
  onDisk next.1.files (pathFor folder project) = (files.foldl RationaleProgress.note progress).store
  := by
  induction h with
  | nil => apply hkept
  | cons hexplains hrest ih =>
      apply ih (spares_of_explains hsound hexplains).sound
      apply onDisk_of_explains hsound hexplains hkept

/-- If nothing fails, then all files can be cut and all of their chunks are explained in the end. -/
theorem contains_of_extracts {tree : FileTree}
    (hcuts : ∀ other, FileTree.Spares Sources.sourceNames tree other → ∀ file ∈ files,
      session.chunksOf? other file.path root = session.chunksOf? tree file.path root)
    (hspares : FileTree.Spares Sources.sourceNames tree state.1.files)
    (h : Extracts session root (pathFor folder project) force progress state files next)
    (hfailed : ∀ file ∈ files, file.failed = 0) :
  ∀ file ∈ files, ∃ chunks, session.chunksOf? tree file.path root = some chunks
    ∧ ∀ chunk ∈ chunks, (files.foldl RationaleProgress.note progress).store.contains chunk.id
  := by
  induction h with
  | nil =>
      intro file hfile
      cases hfile
  | @cons progress state middle next file files hexplains hrest ih =>
      obtain ⟨hfirst, hothers⟩ := List.forall_mem_cons.mp hfailed
      have hspared := spares_of_explains hsound hexplains
      refine List.forall_mem_cons.mpr ⟨?_, ?_⟩
      · obtain ⟨chunks, hcut, hcontains⟩ := contains_of_explains hexplains hfirst
        refine ⟨chunks, ?_, ?_⟩
        · rw [← hcuts _ hspares file List.mem_cons_self, hcut]
        · intro chunk hchunk
          rw [List.foldl_cons, store_foldl_note, contains_foldl_insert, hcontains chunk hchunk, Bool.or_true]
      · apply ih hspared.sound _ (hspares.trans (hspared.mono Set.subset_union_left)) hothers
        intro other hother later hlater
        apply hcuts other hother later (List.mem_cons_of_mem _ hlater)

end

/-- Files whose chunks are explained already are passed over. -/
theorem foldlM_explainFileInOrder_of_known {paths : List String}
    (h : ∀ path ∈ paths, ∃ chunks, session.chunksOf? state.1.files path root = some chunks
      ∧ ∀ chunk ∈ chunks, progress.store.contains chunk.id) :
  paths.foldlM (session.explainFileInOrder root storePath false) progress state
    = some (.ok { progress with
        skipped := progress.skipped
          + (paths.flatMap fun path => (session.chunksOf? state.1.files path root).getD []).length }, state)
  := by
  induction paths generalizing progress with
  | nil => rfl
  | cons first rest ih =>
      obtain ⟨⟨chunks, hcut, hknown⟩, hrest⟩ := List.forall_mem_cons.mp h
      have hothers := @ih { progress with skipped := progress.skipped + chunks.length } hrest
      rw [List.foldlM_cons, bind_of_ok _ (explainFileInOrder_of_known hcut hknown), hothers,
        List.flatMap_cons,
        hcut, Option.getD_some, List.length_append, Nat.add_assoc]

/-! ### Extractions -/

/-- The file of the store of a project. -/
def storePathFor (session : Session μ) (root : String) : String :=
  pathFor session.settings.dataFolder root

/-- The progress of an extraction that starts with the store on disk. -/
def startingFrom (session : Session μ) (tree : FileTree) (root : String) : RationaleProgress :=
  { store := onDisk tree (session.storePathFor root), extracted := 0, skipped := 0, failed := 0 }

theorem store_startingFrom (session : Session μ) (tree : FileTree) (root : String) :
  (session.startingFrom tree root).store = onDisk tree (session.storePathFor root)
  := by
  rw [startingFrom]

/-- What an extraction tells in the end. -/
def reportOf (session : Session μ) (root : String) (progress : RationaleProgress) : RationaleReport :=
  { folder := root, storePath := session.storePathFor root, extracted := progress.extracted,
    skipped := progress.skipped, failed := progress.failed, totalEntries := progress.store.size }

section

variable {folder : String} {last locked : RunState μ} {names : List String}
  {entries : List (String × FileNode)}

/-- An extraction finds the folder, takes the lock, loads the store, and works on the files. -/
theorem extractRationaleInOrder_eq {world : World μ}
    (hroot : existingFolder folder state.1 = (.ok root, state.1))
    (hlock : takeLock (storeLock (session.storePathFor root)) state.1 = (.ok (), world)) :
  session.extractRationaleInOrder folder force state
    = ((Sources.scan world.files root).foldlM
        (session.explainFileInOrder root (session.storePathFor root) force)
        { store := load world.files (session.storePathFor root), extracted := 0, skipped := 0, failed := 0 }
        >>= fun progress => pure (session.reportOf root progress)) (world, state.2)
  := by
  rw [storePathFor] at hlock ⊢
  rw [extractRationaleInOrder, bind_of_ok _ (lift_of_eq hroot state.2),
    bind_of_ok _ (lift_of_eq hlock state.2),
    look_bind, look_bind]
  rfl

theorem namesOf_storePathFor_mem (session : Session μ) (tree : FileTree) (root : String) :
  tree.namesOf (session.storePathFor root) ∈ storeNames
  := namesOf_mem_storeNames tree session.settings.dataFolder root

section

variable {world : World μ} (hsound : state.1.files.Sound)
  (hlock : takeLock (storeLock (session.storePathFor root)) state.1 = (.ok (), world))

include hsound hlock

/-- Taking the lock changes neither sources nor stores. -/
theorem spares_of_takeLock :
  FileTree.Spares (Sources.sourceNames ∪ storeNames) state.1.files world.files
  := by
  have hspares := spares_takeLock (avoids_storeLock_sources (session.storePathFor root)) state.1 hsound
  rw [hlock] at hspares
  apply hspares

/-- Taking the lock leaves the store on disk as it was. -/
theorem onDisk_of_takeLock :
  onDisk world.files (session.storePathFor root) = (session.startingFrom state.1.files root).store
  := by
  rw [store_startingFrom]
  apply onDisk_of_spares (spares_of_takeLock hsound hlock) (.inr (session.namesOf_storePathFor_mem _ _))

/-- When the lock was taken, the store on disk is the one that is loaded. -/
theorem load_eq_of_takeLock {tree : FileTree} (hkeeps : world.files.Keeps tree) :
  load tree (session.storePathFor root) = onDisk tree (session.storePathFor root)
  := by
  obtain ⟨others, hresolve⟩ := exists_resolve_pathFor world.files session.settings.dataFolder root
    (resolve_of_takeLock hsound hlock)
  apply load_eq_onDisk hkeeps.sound (FileTree.resolve_of_keeps hkeeps hresolve)

end

/-- An extraction ends before any file is begun, or when all files are finished, or at one of them. -/
theorem of_extractRationaleInOrder {result : Except ReviewError RationaleReport}
    (hsound : state.1.files.Sound) (hnamed : state.1.files.root.Named)
    (h : session.extractRationaleInOrder folder force state = some (result, last)) :
  (∃ e, result = .error e ∧ e.isFatal = false
      ∧ FileTree.Spares (Sources.sourceNames ∪ storeNames) state.1.files last.1.files)
    ∨ ∃ root names entries locked, existingFolder folder state.1 = (.ok root, state.1)
      ∧ Sources.IsProject state.1.files root names entries
      ∧ takeLock (storeLock (session.storePathFor root)) state.1 = (.ok (), locked)
      ∧ ((∃ files, Sources.scan state.1.files root = files.map (·.path)
          ∧ Extracts session root (session.storePathFor root) force
            (session.startingFrom state.1.files root) (locked, state.2) files last
          ∧ result = .ok (session.reportOf root
            (files.foldl RationaleProgress.note (session.startingFrom state.1.files root))))
        ∨ ∃ files path back e middle, Sources.scan state.1.files root = files.map (·.path) ++ path :: back
          ∧ Extracts session root (session.storePathFor root) force
            (session.startingFrom state.1.files root) (locked, state.2) files middle
          ∧ Breaks session root (session.storePathFor root) force
            (files.foldl RationaleProgress.note (session.startingFrom state.1.files root)) middle path e last
          ∧ result = .error e)
  := by
  rcases hfound : existingFolder folder state.1 with ⟨e | root, world⟩
  · obtain ⟨rfl, reason, rfl⟩ := of_existingFolder_eq_error hfound
    left
    rw [extractRationaleInOrder, bind_of_error _ (lift_of_eq hfound state.2)] at h
    obtain ⟨rfl, rfl⟩ := Prod.mk.inj (Option.some.inj h)
    exact ⟨_, rfl, rfl, .refl hsound _⟩
  obtain ⟨rfl, names, entries, hproject⟩ := of_existingFolder_eq_ok hsound hnamed hfound
  rcases hlock : takeLock (storeLock (session.storePathFor root)) state.1 with ⟨e | u, locked⟩
  · left
    have hlock' := lift_of_eq hlock state.2
    rw [storePathFor] at hlock'
    rw [extractRationaleInOrder, bind_of_ok _ (lift_of_eq hfound state.2), bind_of_error _ hlock'] at h
    obtain ⟨rfl, rfl⟩ := Prod.mk.inj (Option.some.inj h)
    have hspares := spares_takeLock (avoids_storeLock_sources (session.storePathFor root)) state.1 hsound
    rw [hlock] at hspares
    refine ⟨e, rfl, ?_, hspares⟩
    rcases of_takeLock_eq_error hlock with ⟨cause, rfl⟩ | ⟨reason, rfl⟩ <;> rfl
  right
  refine ⟨root, names, entries, locked, rfl, hproject, hlock, ?_⟩
  have hspares := spares_of_takeLock hsound hlock
  have hscan := hproject.scan_of_spares hsound (hspares.mono Set.subset_union_left)
  have hstore : load locked.files (session.storePathFor root)
      = onDisk state.1.files (session.storePathFor root) := by
    rw [load_eq_of_takeLock hsound hlock (.refl hspares.sound), onDisk_of_takeLock hsound hlock,
      startingFrom]
  rw [extractRationaleInOrder_eq hfound hlock, hscan, hstore] at h
  rcases of_bind h with ⟨e, hrun, rfl⟩ | ⟨progress, middle, hrun, hpure⟩
  · rcases of_foldlM_explainFileInOrder hrun with
        ⟨_, -, hresult, -⟩
      | ⟨files, path, back, e', middle, hfiles, hrest⟩
    · cases hresult
    · obtain ⟨hresult, hextracts, hbreaks⟩ := hrest
      obtain rfl := Except.error.inj hresult
      right
      exact ⟨files, path, back, e, middle, hfiles, hextracts, hbreaks, rfl⟩
  · obtain ⟨rfl, rfl⟩ := of_pure hpure
    rcases of_foldlM_explainFileInOrder hrun with
        ⟨files, hfiles, hresult, hextracts⟩
      | ⟨_, _, _, _, _, -, hresult, -⟩
    · obtain rfl := Except.ok.inj hresult
      left
      exact ⟨files, hfiles, hextracts, rfl⟩
    · cases hresult

section

variable (hsound : state.1.files.Sound) (hnamed : state.1.files.root.Named)

include hsound hnamed

/-- An extraction leaves the sources alone, whatever comes of it. -/
theorem spares_of_extractRationaleInOrder {result : Except ReviewError RationaleReport}
    (h : session.extractRationaleInOrder folder force state = some (result, last)) :
  FileTree.Spares Sources.sourceNames state.1.files last.1.files
  := by
  rcases of_extractRationaleInOrder hsound hnamed h with
      ⟨e, -, -, hspares⟩
    | ⟨root, _, _, locked, -, -, hlock, hruns⟩
  · apply hspares.mono Set.subset_union_left
  have hlocked := spares_of_takeLock hsound hlock
  apply (hlocked.mono Set.subset_union_left).trans
  rcases hruns with ⟨files, -, hextracts, -⟩ | ⟨files, path, back, e, middle, -, hextracts, hbreaks, -⟩
  · apply (spares_of_extracts hlocked.sound hextracts).mono Set.subset_union_left
  · have hmiddle := spares_of_extracts hlocked.sound hextracts
    apply (hmiddle.trans (spares_of_breaks hmiddle.sound hbreaks)).mono Set.subset_union_left

/-- An extraction that fails nowhere leaves nothing to do. -/
theorem extractRationaleInOrder_again {report : RationaleReport}
    (h : session.extractRationaleInOrder folder force state = some (.ok report, last))
    (hfailed : report.failed = 0) (again : Session ν) {start : RunState ν}
    (hsettings : again.settings = session.settings)
    (hspares : FileTree.Spares (Sources.sourceNames ∪ storeNames ∪ lockNames) last.1.files start.1.files) :
  again.extractRationaleInOrder folder false start
    = some (.ok { report with
        extracted := 0, skipped := (again.projectChunks start.1.files report.folder).length, failed := 0 },
      start)
  := by
  rcases of_extractRationaleInOrder hsound hnamed h with
      ⟨e, hresult, -⟩
    | ⟨root, names, entries, locked, hrest⟩
  · cases hresult
  obtain ⟨hroot, hproject, hlock, hruns⟩ := hrest
  rcases hruns with ⟨files, hfiles, hextracts, hresult⟩ | ⟨files, path, back, e, middle, hends⟩
  · obtain rfl := Except.ok.inj hresult
    have hlocked := spares_of_takeLock hsound hlock
    have hrun := spares_of_extracts hlocked.sound hextracts
    have hlocks : FileTree.Spares lockNames locked.files start.1.files :=
      (hrun.mono Set.subset_union_right).trans (hspares.mono Set.subset_union_right)
    have hsources : FileTree.Spares Sources.sourceNames state.1.files start.1.files := by
      apply (hlocked.mono Set.subset_union_left).trans
      apply (hrun.mono Set.subset_union_left).trans (hspares.mono _)
      exact fun _ hnames => .inl (.inl hnames)
    have hpath : again.storePathFor root = session.storePathFor root := by
      rw [storePathFor, storePathFor, hsettings]
    have hroot' := existingFolder_of_keeps hsound hnamed hroot hsources.toKeeps
    have hlock' : takeLock (storeLock (again.storePathFor root)) start.1 = (.ok (), start.1) := by
      rw [hpath]
      apply takeLock_again hsound hlock hlocks (namesOf_mem_lockNames _ _)
    -- The store on disk is that of the progress, and it is the one that is loaded.
    have hstore : load start.1.files (again.storePathFor root)
        = (files.foldl RationaleProgress.note (session.startingFrom state.1.files root)).store := by
      rw [hpath, load_eq_of_takeLock hsound hlock hlocks.toKeeps,
        onDisk_of_spares hspares (.inl (.inr (session.namesOf_storePathFor_mem _ _)))]
      apply onDisk_of_extracts hlocked.sound hextracts (onDisk_of_takeLock hsound hlock)
    have hcuts (tree : FileTree) (hother : FileTree.Spares Sources.sourceNames state.1.files tree) :
        ∀ file ∈ files, session.chunksOf? tree file.path root
          = session.chunksOf? state.1.files file.path root := by
      intro file hfile
      apply chunksOf?_of_spares hsound hnamed hproject _ hother
      rw [hfiles]
      apply List.mem_map_of_mem hfile
    have hnone : ∀ file ∈ files, file.failed = 0 := by
      rw [reportOf, failed_foldl_note, Nat.add_eq_zero_iff, List.sum_eq_zero_iff] at hfailed
      intro file hfile
      apply hfailed.2 _ (List.mem_map_of_mem hfile)
    have hknown :=
      contains_of_extracts hlocked.sound hcuts (hlocked.mono Set.subset_union_left) hextracts hnone
    have hpassed := @foldlM_explainFileInOrder_of_known _ again root (again.storePathFor root)
      { store := (files.foldl RationaleProgress.note (session.startingFrom state.1.files root)).store,
        extracted := 0, skipped := 0, failed := 0 } start (files.map (·.path)) ?_
    · rw [extractRationaleInOrder_eq hroot' hlock', hproject.scan_of_spares hsound hsources, hfiles, hstore,
        bind_of_ok _ hpassed, projectChunks, reportOf, reportOf, hproject.scan_of_spares hsound hsources,
        hfiles,
        hpath, Nat.zero_add]
      rfl
    · intro path hpath
      obtain ⟨file, hfile, rfl⟩ := List.mem_map.mp hpath
      obtain ⟨chunks, hcut, hcontains⟩ := hknown file hfile
      refine ⟨chunks, ?_, hcontains⟩
      rw [← hcut, ← hcuts _ hsources file hfile, chunksOf?, chunksOf?, chunkConfig, chunkConfig, hsettings]
  · cases hends.2.2.2

/-- An extraction that an explanation ends at a file has saved the entries of the files before it, and no
others. -/
theorem onDisk_of_isFatal {e : ReviewError} (hfatal : e.isFatal = true)
    (h : session.extractRationaleInOrder folder force state = some (.error e, last)) :
  ∃ root files path back locked middle, existingFolder folder state.1 = (.ok root, state.1)
    ∧ Sources.scan state.1.files root = files.map (·.path) ++ path :: back
    ∧ takeLock (storeLock (session.storePathFor root)) state.1 = (.ok (), locked)
    ∧ Extracts session root (session.storePathFor root) force
      (session.startingFrom state.1.files root) (locked, state.2) files middle
    ∧ Breaks session root (session.storePathFor root) force
      (files.foldl RationaleProgress.note (session.startingFrom state.1.files root)) middle path e last
    ∧ onDisk last.1.files (session.storePathFor root)
      = (files.flatMap (·.entries)).foldl RationaleStore.insert
        (onDisk state.1.files (session.storePathFor root))
  := by
  rcases of_extractRationaleInOrder hsound hnamed h with
      ⟨e', hresult, hother, -⟩
    | ⟨root, _, _, locked, hrest⟩
  · rw [← Except.error.inj hresult, hfatal] at hother
    cases hother
  obtain ⟨hroot, -, hlock, hruns⟩ := hrest
  rcases hruns with
      ⟨files, -, -, hresult⟩
    | ⟨files, path, back, e', middle, hfiles, hextracts, hbreaks, hresult⟩
  · cases hresult
  · obtain rfl := Except.error.inj hresult
    refine ⟨root, files, path, back, locked, middle, hroot, hfiles, hlock, hextracts, hbreaks, ?_⟩
    have hlocked := (spares_of_takeLock hsound hlock).sound
    have hmiddle := spares_of_extracts hlocked hextracts
    have hstore := onDisk_of_extracts hlocked hextracts (onDisk_of_takeLock hsound hlock)
    rw [store_foldl_note, store_startingFrom] at hstore
    rw [← hstore]
    apply onDisk_of_spares (spares_of_breaks_of_isFatal hmiddle.sound hfatal hbreaks)
    exact .inl (.inr (session.namesOf_storePathFor_mem _ _))

end

/-- Extractions are taken up again where they have ended.  One that fails nowhere leaves nothing to do: as
long as sources, stores and locks are left alone, another one that is not forced passes all chunks over and
changes nothing, with any model.  One that an explanation ends at a file has saved the entries of the files
before it, and no others. -/
theorem extractRationaleInOrder_resumes {result : Except ReviewError RationaleReport}
    (hsound : state.1.files.Sound) (hnamed : state.1.files.root.Named)
    (h : session.extractRationaleInOrder folder force state = some (result, last)) :
  (∀ report, result = .ok report → report.failed = 0 →
      ∀ (ν : Type) (again : Session ν) (start : RunState ν), again.settings = session.settings →
      FileTree.Spares (Sources.sourceNames ∪ storeNames ∪ lockNames) last.1.files start.1.files →
      again.extractRationaleInOrder folder false start
        = some (.ok { report with
            extracted := 0, skipped := (again.projectChunks start.1.files report.folder).length,
            failed := 0 },
          start))
    ∧ ∀ e, result = .error e → e.isFatal = true →
      ∃ root files path back locked middle, existingFolder folder state.1 = (.ok root, state.1)
        ∧ Sources.scan state.1.files root = files.map (·.path) ++ path :: back
        ∧ takeLock (storeLock (session.storePathFor root)) state.1 = (.ok (), locked)
        ∧ Extracts session root (session.storePathFor root) force
          (session.startingFrom state.1.files root) (locked, state.2) files middle
        ∧ Breaks session root (session.storePathFor root) force
          (files.foldl RationaleProgress.note (session.startingFrom state.1.files root)) middle path e last
        ∧ onDisk last.1.files (session.storePathFor root)
          = (files.flatMap (·.entries)).foldl RationaleStore.insert
            (onDisk state.1.files (session.storePathFor root))
  := by
  constructor
  · rintro report rfl hfailed ν again start hsettings hspares
    apply extractRationaleInOrder_again hsound hnamed h hfailed again hsettings hspares
  · rintro e rfl hfatal
    apply onDisk_of_isFatal hsound hnamed hfatal h

end

/-- The only chunk of a project is explained once, and an explanation that ends the run leaves the store as
it was. -/
theorem extractRationaleInOrder_resumes_lineTree :
  (∃ orders report last,
      wordySession.extractRationaleInOrder "/" false (quietWorld lineTree, orders) = some (.ok report, last)
      ∧ report.extracted = 1
      ∧ barredSession.extractRationaleInOrder "/" false last
        = some (.ok { report with
            extracted := 0, skipped := (barredSession.projectChunks last.1.files report.folder).length,
            failed := 0 }, last))
    ∧ ∃ orders last,
      barredSession.extractRationaleInOrder "/" false (quietWorld lineTree, orders)
        = some (.error (.inference (.configuration "no key")), last)
      ∧ onDisk last.1.files (barredSession.storePathFor "/")
        = onDisk lineTree (barredSession.storePathFor "/")
  := by
  constructor
  · have hrun : (wordySession.extractRationale "/" false (quietWorld lineTree)).1.toOption.map
        (fun report => (report.extracted, report.failed)) = some (1, 0) := by
      decide +kernel
    obtain ⟨orders, horders⟩ := wordySession.follows_extractRationale "/" false (quietWorld lineTree)
    have h := horders []
    generalize wordySession.extractRationale "/" false (quietWorld lineTree) = extracted at hrun h
    obtain ⟨e | report, last⟩ := extracted
    · cases hrun
    · obtain ⟨hextracted, hfailed⟩ := Prod.mk.inj (Option.some.inj hrun)
      have hsound := (spares_of_extractRationaleInOrder sound_lineTree named_lineTree h).sound
      have hagain := (extractRationaleInOrder_resumes sound_lineTree named_lineTree h).1 report rfl hfailed
        Unit barredSession (last, []) rfl (.refl hsound _)
      exact ⟨_, report, _, h, hextracted, hagain⟩
  · have hrun : (barredSession.extractRationale "/" false (quietWorld lineTree)).1
        = .error (.inference (.configuration "no key")) := by
      decide +kernel
    obtain ⟨orders, horders⟩ := barredSession.follows_extractRationale "/" false (quietWorld lineTree)
    have h := horders []
    rw [hrun] at h
    refine ⟨orders ++ [], _, h, ?_⟩
    obtain ⟨root, files, path, back, locked, middle, hroot, hfiles, -, hextracts, -, hstore⟩ :=
      (extractRationaleInOrder_resumes sound_lineTree named_lineTree h).2 _ rfl rfl
    obtain rfl := List.map_eq_nil_iff.mp (eq_nil_of_scan_lineTree hroot hfiles)
    have hfound := existingFolder_lineTree
    rw [hroot] at hfound
    obtain rfl := Except.ok.inj hfound
    apply hstore

end Scrutiny.Session
