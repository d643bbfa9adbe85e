import Mathlib.Order.CompletePartialOrder
import Scrutiny.Documents.SideBySide
import Scrutiny.Proofs.Documents.Design

/-!
# Steps of a run of writing a design document

What a run knows of its folder and its lock, what its steps keep, and which documents they touch: only
those of its own folder, and only while it is at work.
-/

namespace Scrutiny

open Scrutiny.Path DesignRun

variable {μ : Type}

/-- What is left after an action whose result is only put into another form. -/
theorem ReviewAction.snd_bind_pure {α β : Type} (action : ReviewAction μ α) (f : α → β) (world : World μ) :
  ((action >>= fun a => pure (f a)) world).2 = (action world).2
  := by
  rcases haction : action world with ⟨e | a, next⟩
  · rw [bind_of_error _ haction]
  · rw [bind_of_ok _ haction]
    rfl

/-! ### Folders -/

namespace DesignCall

/-- The folder that a run works in: the one that is given, or the absolute path of its project. -/
def Targets (call : DesignCall μ) (tree : FileTree) (target : String) : Prop :=
  ∃ names, tree.resolve call.folder = .ok names ∧ call.out.getD (absolute names) = target

/-- A run has a folder to work in, and the file of its lock is there. -/
structure Knows (call : DesignCall μ) (tree : FileTree) (target : String) : Prop where
  targets : call.Targets tree target
  hasFolder : tree.HasFolder target
  lockFile?_eq : call.lockFile? tree target = some (tree.namesOf (call.session.designLock target))

/-- A run is about to write its documents. -/
structure Starts (target : String) (state : DesignState) (run : DesignRun) : Prop where
  detailPath_eq : run.detailPath = join target detailFile
  overviewPath_eq : run.overviewPath = join target overviewFile
  state_eq : run.state = state

/-- What a run knows in a phase. -/
def IsReady (call : DesignCall μ) (tree : FileTree) : DesignPhase → Prop
  | .idle | .ended _ => True
  | .atLock _ target | .locked _ target => call.Knows tree target
  | .detailing _ target run => call.Knows tree target ∧ Starts target .notStarted run
  | .overviewing target _ run => call.Knows tree target ∧ Starts target .detailDone run

variable {call other : DesignCall μ} {tree next : FileTree} {target : String} {phase : DesignPhase}

theorem Targets.of_keeps (h : call.Targets tree target) (hkeeps : tree.Keeps next) :
  call.Targets next target
  := by
  obtain ⟨names, hresolve, htarget⟩ := h
  exact ⟨names, FileTree.resolve_of_keeps hkeeps hresolve, htarget⟩

/-- Runs for one project work in folders that are spelled alike if none is given. -/
theorem Targets.eq_of_none {names : List String} {target' : String} (h : call.Targets tree target)
    (h' : other.Targets tree target') (hout : call.out = none) (hout' : other.out = none)
    (hresolve : tree.resolve call.folder = .ok names) (hresolve' : tree.resolve other.folder = .ok names) :
  target = target'
  := by
  obtain ⟨found, hfound, rfl⟩ := h
  obtain ⟨found', hfound', rfl⟩ := h'
  obtain rfl := Except.ok.inj (hresolve.symm.trans hfound)
  obtain rfl := Except.ok.inj (hresolve'.symm.trans hfound')
  rw [hout, hout']

theorem lockFile?_eq_some_iff {file : List String} :
  call.lockFile? tree target = some file ↔ tree.resolve (call.session.designLock target) = .ok file
  := by
  rw [lockFile?]
  cases tree.resolve (call.session.designLock target) with
  | error e => simp [Except.toOption]
  | ok found => simp [Except.toOption]

theorem Knows.of_keeps (h : call.Knows tree target) (hkeeps : tree.Keeps next) :
  call.Knows next target
  := by
  use h.targets.of_keeps hkeeps, h.hasFolder.of_keeps hkeeps
  rw [lockFile?_eq_some_iff, hkeeps.namesOf_eq]
  apply FileTree.resolve_of_keeps hkeeps (lockFile?_eq_some_iff.mp h.lockFile?_eq)

theorem IsReady.of_keeps (h : call.IsReady tree phase) (hkeeps : tree.Keeps next) :
  call.IsReady next phase
  := by
  cases phase with
  | idle | ended => trivial
  | atLock | locked => exact Knows.of_keeps h hkeeps
  | detailing | overviewing => exact ⟨h.1.of_keeps hkeeps, h.2⟩

theorem IsReady.knows (h : call.IsReady tree phase) (htarget : phase.target? = some target) :
  call.Knows tree target
  := by
  cases phase with
  | locked =>
      obtain rfl := Option.some.inj htarget
      exact h
  | detailing | overviewing =>
      obtain rfl := Option.some.inj htarget
      exact h.1
  | _ => cases htarget

/-- Where the lock of a folder stands. -/
theorem namesOf_designLock (tree : FileTree) (session : Session μ) (target : String) :
  tree.namesOf (session.designLock target)
    = tree.namesOf session.settings.dataFolder ++ ["locks", Session.designLockName target]
  := by
  have hnames : ∀ name ∈ ["locks", Session.designLockName target], IsName name := by
    have hlocks : IsName "locks" := by apply isName_of_length <;> decide
    simpa using ⟨hlocks, Session.isName_designLockName target⟩
  rw [FileTree.namesOf_eq_base tree session.settings.dataFolder]
  apply FileTree.namesOf_foldl_join (List.cons_ne_nil _ _) hnames

/-! ### Preparing -/

theorem spares_prepare (call : DesignCall μ) :
  ReviewAction.Spares documentNames call.prepare
  := by
  apply ReviewAction.Spares.bind (Session.spares_existingFolder call.folder)
  intro root
  apply ReviewAction.Spares.bind (.onFiles _ (.createFolders _))
  intro _
  apply ReviewAction.Spares.bind (Session.spares_takeLock (call.session.avoids_designLock _))
  intro _
  apply ReviewAction.Spares.pure

theorem knows_of_prepare {world later : World μ} {root : String} (hsound : world.files.Sound)
    (h : call.prepare world = (.ok (root, target), later)) :
  call.Knows later.files target
  := by
  have hkeeps : world.files.Keeps later.files := by
    have hspares := call.spares_prepare world hsound
    rw [h] at hspares
    apply hspares.toKeeps
  obtain ⟨found, middle, hroot, h⟩ := ReviewAction.of_bind_eq_ok h
  obtain ⟨rfl, hcanonical, -⟩ := Session.existingFolder_eq_ok_iff.mp hroot
  obtain ⟨_, created, hcreate, h⟩ := ReviewAction.of_bind_eq_ok h
  obtain ⟨files, hcreated, rfl⟩ := ReviewAction.of_onFiles_eq_ok hcreate
  obtain ⟨_, locked, hlock, h⟩ := ReviewAction.of_bind_eq_ok h
  obtain ⟨heq, rfl⟩ := ReviewAction.of_pure_eq_ok h
  obtain ⟨rfl, rfl⟩ := Prod.mk.inj heq
  obtain ⟨names, hresolve, -, habsolute⟩ := FileTree.canonical_eq_ok_iff.mp hcanonical
  have hgrows := (FileAction.grows_of_createFolders hsound hcreated).1
  have htaken : FileTree.Keeps files locked.files := by
    have hspares := Session.spares_takeLock (call.session.avoids_designLock (call.out.getD found))
      { world with files } hgrows.sound
    rw [hlock] at hspares
    apply hspares.toKeeps
  constructor
  · use names, FileTree.resolve_of_keeps hkeeps hresolve
    rw [← habsolute]
    rfl
  · apply (FileTree.hasFolder_of_createFolders hsound hcreated).of_keeps htaken
  · rw [lockFile?_eq_some_iff]
    have hsound' : ({ world with files } : World μ).files.Sound := hgrows.sound
    apply resolve_of_takeLock hsound' hlock

/-! ### Working -/

/-- The documents of a folder. -/
def documents (tree : FileTree) (target : String) : Set (List String) :=
  {detailPlace tree target, overviewPlace tree target}

theorem documents_subset (tree : FileTree) (target : String) :
  documents tree target ⊆ documentNames
  := by
  rintro names (rfl | rfl)
  · apply detailPlace_mem_documentNames
  · apply overviewPlace_mem_documentNames

/-- What stands beside a document while it is written is no document. -/
theorem temporary_notMem (tree : FileTree) {path name : String} (hname : fileName? path = some name) :
  tree.namesOf (temporary path) ∉ documentNames
  := by
  have hlast := tree.getLast?_namesOf_temporary hname
  rintro ⟨front, heq | heq⟩
  · rw [heq, List.getLast?_concat] at hlast
    have hending := congrArg (fun text : String => text.toList.getLast?) (Option.some.inj hlast)
    simp [temporaryEnding, detailFile] at hending
  · rw [heq, List.getLast?_concat] at hlast
    have hending := congrArg (fun text : String => text.toList.getLast?) (Option.some.inj hlast)
    simp [temporaryEnding, overviewFile] at hending

section

variable {world : World μ} {spared : Set (List String)} (hsound : world.files.Sound)
  (hready : call.IsReady world.files phase)

include hsound hready

/-- The next step of a run spares the documents that are not those of the folder it works in. -/
theorem spares_act (hnames : spared ⊆ documentNames)
    (hwork : ∀ target, phase.target? = some target → Disjoint (documents world.files target) spared) :
  FileTree.Spares spared world.files (call.act phase world).2.files
  := by
  have hnot {target : String} (htarget : phase.target? = some target) :
      detailPlace world.files target ∉ spared ∧ overviewPlace world.files target ∉ spared :=
    ⟨Set.disjoint_left.mp (hwork target htarget) (.inl rfl),
      Set.disjoint_left.mp (hwork target htarget) (.inr rfl)⟩
  cases phase with
  | idle =>
      have hprepare : ReviewAction.Spares documentNames (call.act .idle) := by
        apply ReviewAction.Spares.bind call.spares_prepare
        rintro ⟨root, target⟩
        apply ReviewAction.Spares.pure
      exact (hprepare world hsound).mono hnames
  | atLock | ended => exact .refl hsound spared
  | locked root target =>
      obtain ⟨hdetail, hoverview⟩ := hnot rfl
      rw [act, ReviewAction.snd_bind_pure]
      exact spares_resume_of_notMem hsound hdetail hoverview call.force
  | detailing root target run =>
      obtain ⟨-, hstarts⟩ := hready
      have hname := fileName?_join target isName_detailFile
      rw [act, ReviewAction.snd_bind_pure, Session.runDetail_eq root hstarts.state_eq,
        ReviewAction.snd_bind_pure, hstarts.detailPath_eq]
      apply (call.session.writes_writeDetail root _ world rfl).spares hsound hname (hnot rfl).1
      exact fun htemporary => temporary_notMem world.files hname (hnames htemporary)
  | overviewing target skipped run =>
      obtain ⟨-, hstarts⟩ := hready
      have hname := fileName?_join target isName_overviewFile
      rw [act, ReviewAction.snd_bind_pure, Session.runOverview_eq hstarts.state_eq,
        ReviewAction.snd_bind_pure, hstarts.detailPath_eq, hstarts.overviewPath_eq]
      rcases hoverview : call.session.writeOverview (join target detailFile) (join target overviewFile)
        world with ⟨result, later⟩
      rcases call.session.of_writeOverview _ _ world hoverview with ⟨cause, -, rfl⟩ | ⟨detail, -, hwrites⟩
      · exact .refl hsound spared
      · apply hwrites.spares hsound hname (hnot rfl).2
        exact fun htemporary => temporary_notMem world.files hname (hnames htemporary)

theorem keeps_act :
  world.files.Keeps (call.act phase world).2.files
  := by
  apply (spares_act hsound hready (Set.empty_subset documentNames) _).toKeeps
  intro target _
  apply Set.disjoint_empty

theorem isReady_of_act {next : World μ} {later : DesignPhase}
    (h : call.act phase world = (.ok later, next)) :
  call.IsReady next.files later
  := by
  have hkeeps := keeps_act hsound hready
  rw [h] at hkeeps
  cases phase with
  | idle =>
      obtain ⟨⟨root, target⟩, middle, hprepare, hpure⟩ := ReviewAction.of_bind_eq_ok h
      obtain ⟨rfl, rfl⟩ := ReviewAction.of_pure_eq_ok hpure
      exact knows_of_prepare hsound hprepare
  | atLock root target =>
      obtain ⟨rfl, rfl⟩ := ReviewAction.of_pure_eq_ok h
      exact hready
  | locked root target =>
      obtain ⟨start, middle, hresume, hpure⟩ := ReviewAction.of_bind_eq_ok h
      obtain ⟨rfl, rfl⟩ := ReviewAction.of_pure_eq_ok hpure
      obtain ⟨files, hresumed, rfl⟩ := ReviewAction.of_onFiles_eq_ok hresume
      obtain ⟨-, hstarts, -⟩ := of_resume_eq_ok (Knows.hasFolder hready) hresumed
      have hknows := Knows.of_keeps hready hkeeps
      rw [begun]
      rcases hstarts.state with ⟨hstate, -⟩ | hstate
      · rw [hstate]
        exact ⟨hknows, hstarts.detailPath_eq, hstarts.overviewPath_eq, hstate⟩
      · rw [hstate]
        exact ⟨hknows, hstarts.detailPath_eq, hstarts.overviewPath_eq, hstate⟩
  | detailing root target run =>
      obtain ⟨hknows, hstarts⟩ := hready
      obtain ⟨detailed, middle, hdetail, hpure⟩ := ReviewAction.of_bind_eq_ok h
      obtain ⟨rfl, rfl⟩ := ReviewAction.of_pure_eq_ok hpure
      rw [Session.runDetail_eq root hstarts.state_eq] at hdetail
      obtain ⟨_, written, -, hpure⟩ := ReviewAction.of_bind_eq_ok hdetail
      obtain ⟨rfl, rfl⟩ := ReviewAction.of_pure_eq_ok hpure
      exact ⟨hknows.of_keeps hkeeps, hstarts.detailPath_eq, hstarts.overviewPath_eq, rfl⟩
  | overviewing target skipped run =>
      obtain ⟨finished, middle, -, hpure⟩ := ReviewAction.of_bind_eq_ok h
      obtain ⟨rfl, rfl⟩ := ReviewAction.of_pure_eq_ok hpure
      trivial
  | ended result =>
      obtain ⟨rfl, rfl⟩ := ReviewAction.of_pure_eq_ok h
      trivial

omit hsound hready in
/-- A run changes its folder only when it takes its lock, and when it has come to its end. -/
theorem target?_of_act {next : World μ} {later : DesignPhase}
    (h : call.act phase world = (.ok later, next)) (htarget : later.target? = some target) :
  phase.target? = some target ∨ ∃ root, phase = .atLock root target
  := by
  cases phase with
  | idle =>
      obtain ⟨⟨root, target⟩, middle, hprepare, hpure⟩ := ReviewAction.of_bind_eq_ok h
      obtain ⟨rfl, rfl⟩ := ReviewAction.of_pure_eq_ok hpure
      cases htarget
  | atLock root target =>
      obtain ⟨rfl, rfl⟩ := ReviewAction.of_pure_eq_ok h
      obtain rfl := Option.some.inj htarget
      exact .inr ⟨root, rfl⟩
  | locked root target =>
      obtain ⟨start, middle, hresume, hpure⟩ := ReviewAction.of_bind_eq_ok h
      obtain ⟨rfl, rfl⟩ := ReviewAction.of_pure_eq_ok hpure
      left
      rw [begun] at htarget
      split at htarget <;> exact htarget
  | detailing root target run =>
      obtain ⟨detailed, middle, hdetail, hpure⟩ := ReviewAction.of_bind_eq_ok h
      obtain ⟨rfl, rfl⟩ := ReviewAction.of_pure_eq_ok hpure
      exact .inl htarget
  | overviewing target skipped run =>
      obtain ⟨finished, middle, -, hpure⟩ := ReviewAction.of_bind_eq_ok h
      obtain ⟨rfl, rfl⟩ := ReviewAction.of_pure_eq_ok hpure
      cases htarget
  | ended result =>
      obtain ⟨rfl, rfl⟩ := ReviewAction.of_pure_eq_ok h
      cases htarget

end

end DesignCall

end Scrutiny
