import Scrutiny.Proofs.Documents.Call

/-!
# Design documents side by side

While a run is at work, no other run holds its lock.  The name of the lock is made of the path of the
folder as it is spelled: so two runs never work at the same time if their folders are spelled alike,
while runs into one folder that is spelled in two ways do not exclude each other.
-/

namespace Scrutiny

open Scrutiny.Path DesignRun

variable {μ : Type}

namespace DesignRuns

open DesignCall

variable {state next : DesignRuns μ} {i j : Nat} {call other : DesignCall μ} {target target' : String}
  {phase : DesignPhase}

/-! ### Steps -/

theorem work?_eq_some_iff :
  state.work? i = some (call, target)
    ↔ ∃ phase, state.runs[i]? = some (call, phase) ∧ phase.target? = some target
  := by
  rw [work?]
  cases hrun : state.runs[i]? with
  | none => simp
  | some run =>
      obtain ⟨other, phase⟩ := run
      simp only [Option.map_eq_some_iff, Prod.mk.injEq, Option.some.injEq]
      constructor
      · rintro ⟨found, htarget, rfl, rfl⟩
        exact ⟨phase, ⟨rfl, rfl⟩, htarget⟩
      · rintro ⟨_, ⟨rfl, rfl⟩, htarget⟩
        exact ⟨target, htarget, rfl, rfl⟩

/-- The phase that an action leads to. -/
def phaseAfter : Except ReviewError DesignPhase → DesignPhase
  | .ok later => later
  | .error e => .ended (.error e)

theorem of_step? (h : state.step? i = some next) :
  ∃ call phase, state.runs[i]? = some (call, phase) ∧ state.isStopped call phase = false
    ∧ next.world = (call.act phase state.world).2
    ∧ next.runs = state.runs.set i (call, phaseAfter (call.act phase state.world).1)
  := by
  rw [step?] at h
  rcases hrun : state.runs[i]? with _ | ⟨call, phase⟩
  · rw [hrun] at h
    cases h
  · rw [hrun] at h
    obtain ⟨hstopped, h⟩ := Option.ite_none_left_eq_some.mp h
    obtain rfl := Option.some.inj h
    exact ⟨call, phase, rfl, Bool.eq_false_iff.mpr hstopped, rfl, rfl⟩

/-- What is true of every state that runs can reach: each run knows what its phase says, and no two of
them hold the same lock. -/
structure Sound (state : DesignRuns μ) : Prop where
  sound : state.world.files.Sound
  isReady : ∀ (i : Nat) (call : DesignCall μ) (phase : DesignPhase),
    state.runs[i]? = some (call, phase) → call.IsReady state.world.files phase
  lock_ne : ∀ (i j : Nat) (call other : DesignCall μ) (target target' : String), i ≠ j →
    state.work? i = some (call, target) → state.work? j = some (other, target') →
    state.world.files.namesOf (call.session.designLock target)
      ≠ state.world.files.namesOf (other.session.designLock target')

theorem sound_ofCalls {world : World μ} (hsound : world.files.Sound) (calls : List (DesignCall μ)) :
  (ofCalls world calls).Sound
  := by
  have hidle {i : Nat} {call : DesignCall μ} {phase : DesignPhase}
      (hrun : (ofCalls world calls).runs[i]? = some (call, phase)) : phase = .idle := by
    obtain ⟨_, -, hpair⟩ := List.mem_map.mp (List.mem_of_getElem? hrun)
    exact (Prod.mk.inj hpair).2.symm
  use hsound
  · intro i call phase hrun
    rw [hidle hrun]
    trivial
  · intro i j call other target target' _ hwork
    obtain ⟨phase, hrun, htarget⟩ := work?_eq_some_iff.mp hwork
    rw [hidle hrun] at htarget
    cases htarget

/-- A run that takes its lock takes one that no run holds. -/
theorem Sound.lock_ne_of_atLock (h : state.Sound) {root : String}
    (hrun : state.runs[i]? = some (call, .atLock root target))
    (hstopped : state.isStopped call (.atLock root target) = false)
    (hwork : state.work? j = some (other, target')) :
  state.world.files.namesOf (call.session.designLock target)
    ≠ state.world.files.namesOf (other.session.designLock target')
  := by
  have hknows : call.Knows state.world.files target := h.isReady i call _ hrun
  obtain ⟨phase, hother, htarget⟩ := work?_eq_some_iff.mp hwork
  have hknows' := (h.isReady j other phase hother).knows htarget
  rw [isStopped, hknows.lockFile?_eq, Option.any_some, isHeld, List.any_eq_false] at hstopped
  have hfree := hstopped (other, phase) (List.mem_of_getElem? hother)
  intro heq
  apply hfree
  rw [holds, htarget, Option.any_some, hknows'.lockFile?_eq, heq]
  apply beq_self_eq_true

/-- Who is at work after a step was at work before, or has just taken a lock that no run held. -/
theorem of_work?_of_step? (hstep : state.step? i = some next)
    (hwork : next.work? j = some (call, target)) :
  state.work? j = some (call, target)
    ∨ j = i ∧ ∃ root, state.runs[i]? = some (call, .atLock root target)
      ∧ state.isStopped call (.atLock root target) = false
  := by
  obtain ⟨mover, phase, hrun, hstopped, -, hruns⟩ := of_step? hstep
  obtain ⟨later, hlater, htarget⟩ := work?_eq_some_iff.mp hwork
  rw [hruns, List.getElem?_set] at hlater
  split at hlater
  · rename_i heq
    subst heq
    rw [if_pos (List.getElem?_eq_some_iff.mp hrun).1] at hlater
    obtain ⟨rfl, rfl⟩ := Prod.mk.inj (Option.some.inj hlater)
    rcases hact : mover.act phase state.world with ⟨e | found, world⟩
    · rw [hact] at htarget
      cases htarget
    · rw [hact] at htarget
      rcases target?_of_act hact htarget with hbefore | ⟨root, rfl⟩
      · exact .inl (work?_eq_some_iff.mpr ⟨phase, hrun, hbefore⟩)
      · exact .inr ⟨rfl, root, hrun, hstopped⟩
  · exact .inl (work?_eq_some_iff.mpr ⟨later, hlater, htarget⟩)

section

variable (h : state.Sound) (hstep : state.step? i = some next)

include h hstep

theorem Sound.keeps_of_step? :
  state.world.files.Keeps next.world.files
  := by
  obtain ⟨call, phase, hrun, -, hworld, -⟩ := of_step? hstep
  rw [hworld]
  apply keeps_act h.sound (h.isReady i call phase hrun)

theorem sound_of_step? :
  next.Sound
  := by
  have hkeeps := h.keeps_of_step? hstep
  use hkeeps.sound
  · obtain ⟨mover, phase, hrun, -, hworld, hruns⟩ := of_step? hstep
    intro j call later hlater
    rw [hruns, List.getElem?_set] at hlater
    split at hlater
    · rename_i heq
      subst heq
      rw [if_pos (List.getElem?_eq_some_iff.mp hrun).1] at hlater
      obtain ⟨rfl, rfl⟩ := Prod.mk.inj (Option.some.inj hlater)
      rcases hact : mover.act phase state.world with ⟨e | found, world⟩
      · trivial
      · rw [hworld, hact]
        apply isReady_of_act h.sound (h.isReady i mover phase hrun) hact
    · apply (h.isReady j call later hlater).of_keeps hkeeps
  · intro j k call other target target' hne hj hk
    rw [hkeeps.namesOf_eq, hkeeps.namesOf_eq]
    rcases of_work?_of_step? hstep hj with hj | ⟨rfl, root, hrun, hstopped⟩
    · rcases of_work?_of_step? hstep hk with hk | ⟨rfl, root, hrun, hstopped⟩
      · apply h.lock_ne j k call other target target' hne hj hk
      · apply (h.lock_ne_of_atLock hrun hstopped hj).symm
    · rcases of_work?_of_step? hstep hk with hk | ⟨rfl, -⟩
      · apply h.lock_ne_of_atLock hrun hstopped hk
      · exact (hne rfl).elim

end

theorem sound_of_run? {order : List Nat} (h : state.Sound) (hrun : state.run? order = some next) :
  next.Sound
  := by
  induction order generalizing state with
  | nil =>
      obtain rfl : state = next := Option.some.inj hrun
      apply h
  | cons i rest ih =>
      obtain ⟨middle, hmiddle, hrest⟩ := Option.bind_eq_some_iff.mp hrun
      apply ih (sound_of_step? h hmiddle) hrest

/-! ### Exclusion -/

theorem Sound.knows (h : state.Sound) (hwork : state.work? i = some (call, target)) :
  call.Knows state.world.files target
  := by
  obtain ⟨phase, hrun, htarget⟩ := work?_eq_some_iff.mp hwork
  apply (h.isReady i call phase hrun).knows htarget

/-- Folders that are at different places have different documents. -/
theorem disjoint_documents {tree : FileTree} (hne : tree.namesOf target' ≠ tree.namesOf target) :
  Disjoint (documents tree target') (documents tree target)
  := by
  have hplace (folder : String) {name : String} (hname : IsName name) :
      tree.namesOf (join folder name) = tree.namesOf folder ++ [name] := by
    have hnames : ∀ other ∈ [name], IsName other := by simpa using hname
    have hjoin : tree.namesOf ([name].foldl join folder) = tree.base folder ++ [name] :=
      FileTree.namesOf_foldl_join (List.cons_ne_nil _ _) hnames
    rw [FileTree.namesOf_eq_base tree folder]
    apply hjoin
  rw [Set.disjoint_left]
  rintro names hfirst hsecond
  apply hne
  simp only [documents, detailPlace, overviewPlace, hplace _ isName_detailFile,
    hplace _ isName_overviewFile, Set.mem_insert_iff, Set.mem_singleton_iff] at hfirst hsecond
  rcases hfirst with rfl | rfl <;> rcases hsecond with heq | heq <;> exact (List.append_inj' heq rfl).1

/-- A run that is at work in no other way than for its own folder leaves the documents of other folders
alone. -/
theorem Sound.file?_of_step? (h : state.Sound) (hstep : state.step? j = some next)
    (hother : ∀ call' target', state.work? j = some (call', target') →
      state.world.files.namesOf target' ≠ state.world.files.namesOf target)
    {names : List String} (hnames : names ∈ documents state.world.files target) :
  next.world.files.file? names = state.world.files.file? names
  := by
  obtain ⟨mover, phase, hrun, -, hworld, -⟩ := of_step? hstep
  rw [hworld]
  apply (spares_act h.sound (h.isReady j mover phase hrun)
    (documents_subset state.world.files target) _).file?_eq names hnames
  intro target' htarget
  apply disjoint_documents
  apply hother mover target' (work?_eq_some_iff.mpr ⟨phase, hrun, htarget⟩)

/-- Two runs without a folder of their own are never at work for the same project at the same time, however
its path is spelled. -/
theorem Sound.not_work_of_none (h : state.Sound) (hne : i ≠ j) {names : List String}
    (hwork : state.work? i = some (call, target)) (hother : state.work? j = some (other, target'))
    (hout : call.out = none) (hout' : other.out = none)
    (hresolve : state.world.files.resolve call.folder = .ok names)
    (hresolve' : state.world.files.resolve other.folder = .ok names) :
  state.world.files.namesOf call.session.settings.dataFolder
    ≠ state.world.files.namesOf other.session.settings.dataFolder
  := by
  obtain rfl := (h.knows hwork).targets.eq_of_none (h.knows hother).targets hout hout' hresolve hresolve'
  intro hdata
  apply h.lock_ne i j call other target target hne hwork hother
  rw [namesOf_designLock, namesOf_designLock, hdata]

/-! ### A run on its own -/

theorem step?_alone {world : World μ} (hended : ∀ result, phase ≠ .ended result) :
  (DesignRuns.mk world [(call, phase)]).step? 0
    = some ⟨(call.act phase world).2, [(call, phaseAfter (call.act phase world).1)]⟩
  := by
  have hstopped : (DesignRuns.mk world [(call, phase)]).isStopped call phase = false := by
    cases phase with
    | atLock root target =>
        rw [isStopped]
        cases call.lockFile? world.files target <;> rfl
    | ended result => exact (hended result rfl).elim
    | _ => rfl
  rw [step?, List.getElem?_cons_zero]
  dsimp only
  rw [hstopped, if_neg Bool.false_ne_true]
  rfl

theorem run?_alone_cons {world later : World μ} {result : Except ReviewError DesignPhase}
    (hended : ∀ result, phase ≠ .ended result) (hact : call.act phase world = (result, later))
    (order : List Nat) :
  (DesignRuns.mk world [(call, phase)]).run? (0 :: order)
    = (DesignRuns.mk later [(call, phaseAfter result)]).run? order
  := by
  rw [run?, step?_alone hended, Option.bind_some, hact]

theorem beginDesign_eq (call : DesignCall μ) :
  call.session.beginDesign call.folder call.out call.force
    = (call.prepare >>= fun (root, target) =>
        ReviewAction.onFiles .files (DesignRun.resume target call.force) >>= fun start =>
          pure (root, start))
  := by
  simp only [Session.beginDesign, prepare, bind_assoc, pure_bind]

theorem run?_overviewing_alone {world last : World μ} {result : Except ReviewError DesignReport}
    {detailSkipped : Bool} {run : DesignRun} (target : String)
    (h : (call.session.runOverview run >>= fun finished => pure (report detailSkipped finished)) world
      = (result, last)) :
  (DesignRuns.mk world [(call, .overviewing target detailSkipped run)]).run? [0]
    = some ⟨last, [(call, .ended result)]⟩
  := by
  rcases ReviewAction.of_bind h with ⟨e, hoverview, rfl⟩ | ⟨finished, written, hoverview, hpure⟩
  · have hact : call.act (.overviewing target detailSkipped run) world = (.error e, last) :=
      ReviewAction.bind_of_error _ hoverview
    rw [run?_alone_cons (fun _ heq => by cases heq) hact]
    rfl
  · obtain ⟨rfl, rfl⟩ := Prod.mk.inj hpure
    have hact : call.act (.overviewing target detailSkipped run) world
        = (.ok (.ended (.ok (report detailSkipped finished))), written) :=
      ReviewAction.bind_of_ok _ hoverview
    rw [run?_alone_cons (fun _ heq => by cases heq) hact]
    rfl

/-- A run on its own does step by step what the command does. -/
theorem run?_alone {world last : World μ} {result : Except ReviewError DesignReport}
    (h : call.session.writeDesign call.folder call.out call.force world = (result, last)) :
  ∃ count, (ofCalls world [call]).run? (List.replicate count 0) = some ⟨last, [(call, .ended result)]⟩
  := by
  change ∃ count, (DesignRuns.mk world [(call, .idle)]).run? (List.replicate count 0) = _
  rw [Session.writeDesign, beginDesign_eq, bind_assoc] at h
  rcases ReviewAction.of_bind h with ⟨e, hprepare, rfl⟩ | ⟨⟨root, target⟩, prepared, hprepare, h⟩
  · use 1
    have hact : call.act .idle world = (.error e, last) := ReviewAction.bind_of_error _ hprepare
    rw [List.replicate_one, run?_alone_cons (fun _ heq => by cases heq) hact]
    rfl
  have hact : call.act .idle world = (.ok (.atLock root target), prepared) :=
    ReviewAction.bind_of_ok _ hprepare
  have hlock : call.act (.atLock root target) prepared = (.ok (.locked root target), prepared) := rfl
  -- The steps up to the look at the documents are the same for all that comes of the run.
  have hprepared (order : List Nat) : (DesignRuns.mk world [(call, .idle)]).run? (0 :: 0 :: order)
      = (DesignRuns.mk prepared [(call, .locked root target)]).run? order := by
    rw [run?_alone_cons (fun _ heq => by cases heq) hact, phaseAfter,
      run?_alone_cons (fun _ heq => by cases heq) hlock, phaseAfter]
  dsimp only at h
  rw [bind_assoc] at h
  rcases ReviewAction.of_bind h with ⟨e, hresume, rfl⟩ | ⟨start, begun, hresume, h⟩
  · use 3
    have hact : call.act (.locked root target) prepared = (.error e, last) :=
      ReviewAction.bind_of_error _ hresume
    rw [List.replicate_succ, List.replicate_succ, List.replicate_one, hprepared,
      run?_alone_cons (fun _ heq => by cases heq) hact]
    rfl
  have hact : call.act (.locked root target) prepared = (.ok (DesignCall.begun root target start), begun) :=
    ReviewAction.bind_of_ok _ hresume
  have hbegun (order : List Nat) : (DesignRuns.mk world [(call, .idle)]).run? (0 :: 0 :: 0 :: order)
      = (DesignRuns.mk begun [(call, DesignCall.begun root target start)]).run? order := by
    rw [hprepared, run?_alone_cons (fun _ heq => by cases heq) hact, phaseAfter]
  rw [pure_bind] at h
  cases hskipped : start.state == .detailDone with
  | true =>
      use 4
      rw [Session.runStages, hskipped, if_pos rfl, pure_bind] at h
      rw [DesignCall.begun, hskipped, if_pos rfl] at hbegun
      rw [List.replicate_succ, List.replicate_succ, List.replicate_succ, List.replicate_one, hbegun]
      apply run?_overviewing_alone target h
  | false =>
      rw [Session.runStages, hskipped, if_neg Bool.false_ne_true] at h
      rw [DesignCall.begun, hskipped, if_neg Bool.false_ne_true] at hbegun
      rcases ReviewAction.of_bind h with ⟨e, hdetail, rfl⟩ | ⟨detailed, written, hdetail, h⟩
      · use 4
        have hact : call.act (.detailing root target start) begun = (.error e, last) :=
          ReviewAction.bind_of_error _ hdetail
        rw [List.replicate_succ, List.replicate_succ, List.replicate_succ, List.replicate_one, hbegun,
          run?_alone_cons (fun _ heq => by cases heq) hact]
        rfl
      · use 5
        have hact : call.act (.detailing root target start) begun
            = (.ok (.overviewing target false detailed), written) := ReviewAction.bind_of_ok _ hdetail
        rw [List.replicate_succ, List.replicate_succ, List.replicate_succ, List.replicate_succ,
          List.replicate_one, hbegun, run?_alone_cons (fun _ heq => by cases heq) hact, phaseAfter]
        apply run?_overviewing_alone target h

/-! ### Folders that are spelled in two ways -/

/-- A run need not wait for a lock that no run holds. -/
theorem Sound.isStopped_eq_false (h : state.Sound) {root : String}
    (hrun : state.runs[i]? = some (call, .atLock root target))
    (hfree : ∀ j other target', state.work? j = some (other, target') →
      state.world.files.namesOf (call.session.designLock target)
        ≠ state.world.files.namesOf (other.session.designLock target')) :
  state.isStopped call (.atLock root target) = false
  := by
  have hknows : call.Knows state.world.files target := h.isReady i call _ hrun
  rw [isStopped, hknows.lockFile?_eq, Option.any_some, isHeld, List.any_eq_false]
  rintro ⟨other, phase⟩ hmem hholds
  obtain ⟨j, hj⟩ := List.getElem?_of_mem hmem
  obtain ⟨target', htarget, hlock⟩ := (Option.any_eq_true _ _).mp hholds
  have hwork := work?_eq_some_iff.mpr ⟨phase, hj, htarget⟩
  rw [(h.knows hwork).lockFile?_eq, beq_iff_eq] at hlock
  apply hfree j other target' hwork (Option.some.inj hlock).symm

theorem step?_of_act {later : DesignPhase} {world : World μ} (hrun : state.runs[i]? = some (call, phase))
    (hstopped : state.isStopped call phase = false)
    (hact : call.act phase state.world = (.ok later, world)) :
  state.step? i = some ⟨world, state.runs.set i (call, later)⟩
  := by
  rw [step?, hrun]
  dsimp only
  rw [hstopped, if_neg Bool.false_ne_true, acted, hact]

theorem run?_append (state : DesignRuns μ) (order later : List Nat) :
  state.run? (order ++ later) = (state.run? order).bind (run? · later)
  := by
  induction order generalizing state with
  | nil => rfl
  | cons i rest ih =>
      rw [List.cons_append, run?, run?, Option.bind_assoc]
      congr
      funext middle
      apply ih

/-- A run that writes into a folder. -/
def docsCall (out : String) : DesignCall Unit where
  session := quietSession
  folder := "/"
  out := some out
  force := false

/-- A folder for documents, and the locks of this folder in two spellings. -/
def docsTree : FileTree where
  root := .folder [("docs", .folder []), ("locks", .folder
    [("design-46b42b4229cd7a39.lock", .file []), ("design-98cde11249347533.lock", .file [])])]
  here := []

theorem sound_docsTree :
  docsTree.Sound
  := by
  constructor
  · apply FileNode.Ordered.folder
    · decide
    · simp only [List.forall_mem_cons, List.not_mem_nil, false_implies, implies_true, and_true]
      constructor
      · apply FileNode.Ordered.folder List.Pairwise.nil
        apply List.forall_mem_nil
      · apply FileNode.Ordered.folder
        · decide
        · simp only [List.forall_mem_cons, List.not_mem_nil, false_implies, implies_true, and_true]
          exact ⟨.file _, .file _⟩
  · exact ⟨_, rfl⟩

/-- A run that finds its folder and the file of its lock changes nothing before it has its lock. -/
theorem act_idle_docs {out lock : String}
    (hcreate : FileAction.createFolders out docsTree = (.ok (), docsTree))
    (hparent : parent? (quietSession.designLock out) = some "locks")
    (hresolve : docsTree.resolve (quietSession.designLock out) = .ok ["locks", lock])
    (hfile : docsTree.at? ["locks", lock] = some (.file [])) :
  (docsCall out).act .idle (quietWorld docsTree) = (.ok (.atLock "/" out), quietWorld docsTree)
  := by
  have hroot : existingFolder "/" (quietWorld docsTree) = (.ok "/", quietWorld docsTree) := rfl
  have hfolder : ReviewAction.onFiles .files (FileAction.createFolders out) (quietWorld docsTree)
      = (.ok (), quietWorld docsTree) := by
    rw [ReviewAction.onFiles, quietWorld, hcreate]
    rfl
  have hlook : FileAction.look (·.resolve (quietSession.designLock out)) docsTree
      = (.ok ["locks", lock], docsTree) := by
    rw [FileAction.look, hresolve]
  have htouch : FileAction.touch (quietSession.designLock out) docsTree = (.ok (), docsTree) := by
    rw [FileAction.touch, FileAction.bind_of_ok _ hlook, FileAction.get_bind, hfile]
    rfl
  have hlocks : ReviewAction.onFiles .files (FileAction.createFolders "locks") (quietWorld docsTree)
      = (.ok (), quietWorld docsTree) := rfl
  have hlock : takeLock (quietSession.designLock out) (quietWorld docsTree)
      = (.ok (), quietWorld docsTree) := by
    rw [takeLock, hparent]
    dsimp only
    rw [ReviewAction.bind_of_ok _ hlocks, ReviewAction.onFiles, quietWorld, htouch]
    rfl
  have hprepare : (docsCall out).prepare (quietWorld docsTree) = (.ok ("/", out), quietWorld docsTree) := by
    apply (ReviewAction.bind_of_ok _ hroot).trans
    apply (ReviewAction.bind_of_ok _ hfolder).trans
    apply (ReviewAction.bind_of_ok _ hlock).trans
    rfl
  rw [act, ReviewAction.bind_of_ok _ hprepare]
  rfl

/-- Two runs take their locks one after the other. -/
theorem run?_docs :
  (ofCalls (quietWorld docsTree) [docsCall "docs", docsCall "./docs"]).run? [0, 0, 1, 1]
    = some ⟨quietWorld docsTree,
      [(docsCall "docs", .locked "/" "docs"), (docsCall "./docs", .locked "/" "./docs")]⟩
  := by
  have hact : (docsCall "docs").act .idle (quietWorld docsTree)
      = (.ok (.atLock "/" "docs"), quietWorld docsTree) := by
    have hresolve : docsTree.resolve (quietSession.designLock "docs")
        = .ok ["locks", "design-46b42b4229cd7a39.lock"] := by decide +kernel
    exact act_idle_docs rfl (by decide +kernel) hresolve rfl
  have hact' : (docsCall "./docs").act .idle (quietWorld docsTree)
      = (.ok (.atLock "/" "./docs"), quietWorld docsTree) := by
    have hresolve : docsTree.resolve (quietSession.designLock "./docs")
        = .ok ["locks", "design-98cde11249347533.lock"] := by decide +kernel
    exact act_idle_docs rfl (by decide +kernel) hresolve rfl
  let waiting : DesignRuns Unit := ⟨quietWorld docsTree,
    [(docsCall "docs", .locked "/" "docs"), (docsCall "./docs", .atLock "/" "./docs")]⟩
  have hwaiting : (ofCalls (quietWorld docsTree) [docsCall "docs", docsCall "./docs"]).run? [0, 0, 1]
      = some waiting := by
    rw [run?, step?_of_act rfl rfl hact, Option.bind_some, run?]
    rw [@step?_of_act _ _ _ _ (.atLock "/" "docs") _ _ rfl _ rfl, Option.bind_some, run?]
    rw [@step?_of_act _ _ _ _ .idle _ _ rfl rfl hact', Option.bind_some]
    · rfl
    · rw [isStopped]
      generalize (docsCall "docs").lockFile? _ _ = file
      cases file <;> rfl
  have hsound : waiting.Sound := sound_of_run? (sound_ofCalls sound_docsTree _) hwaiting
  -- The locks of both runs stand in one folder, under two names.
  have hfree (j : Nat) (other : DesignCall Unit) (target' : String)
      (hwork : waiting.work? j = some (other, target')) :
      docsTree.namesOf ((docsCall "./docs").session.designLock "./docs")
        ≠ docsTree.namesOf (other.session.designLock target') := by
    obtain ⟨phase, hj, htarget⟩ := work?_eq_some_iff.mp hwork
    match j with
    | 0 =>
        obtain ⟨rfl, rfl⟩ := Prod.mk.inj (Option.some.inj hj)
        obtain rfl := Option.some.inj htarget
        rw [namesOf_designLock, namesOf_designLock]
        intro heq
        have hnames : Session.designLockName "./docs" = Session.designLockName "docs" := by
          simpa [docsCall] using heq
        revert hnames
        decide +kernel
    | 1 =>
        obtain ⟨rfl, rfl⟩ := Prod.mk.inj (Option.some.inj hj)
        cases htarget
    | j + 2 => cases hj
  have hstopped := hsound.isStopped_eq_false (i := 1) rfl hfree
  rw [show [0, 0, 1, 1] = [0, 0, 1] ++ [1] from rfl, run?_append, hwaiting, Option.bind_some, run?,
    step?_of_act (i := 1) rfl hstopped rfl]
  rfl

/-- While a run is at work, in the folder that is given to it or in that of its project, no other run
with the same folder for data is at work in a folder that is spelled alike, and no step of another run
changes its documents, unless that one is at work in the same folder, spelled otherwise. -/
theorem keepsApart_of_run? {world : World μ} {calls : List (DesignCall μ)} {order : List Nat}
    (hsound : world.files.Sound) (hrun : (ofCalls world calls).run? order = some state)
    (hwork : state.work? i = some (call, target)) :
  call.Targets state.world.files target ∧ ∀ j, i ≠ j →
    (∀ other target', state.work? j = some (other, target') →
      state.world.files.namesOf call.session.settings.dataFolder
        = state.world.files.namesOf other.session.settings.dataFolder → target' ≠ target)
    ∧ ∀ next, state.step? j = some next →
      (∀ other target', state.work? j = some (other, target') →
        state.world.files.namesOf target' ≠ state.world.files.namesOf target) →
      ∀ names ∈ documents state.world.files target,
        next.world.files.file? names = state.world.files.file? names
  := by
  have hstate := sound_of_run? (sound_ofCalls hsound calls) hrun
  use (hstate.knows hwork).targets
  intro j hne
  constructor
  · rintro other target' hother hdata rfl
    apply hstate.lock_ne i j call other target' target' hne hwork hother
    rw [namesOf_designLock, namesOf_designLock, hdata]
  · intro next hstep hplaces names hnames
    apply hstate.file?_of_step? hstep hplaces hnames

theorem keepsApart_of_run?_docs :
  ∃ state, (ofCalls (quietWorld docsTree) [docsCall "docs", docsCall "./docs"]).run? [0, 0, 1, 1]
      = some state
    ∧ state.work? 0 = some (docsCall "docs", "docs")
    ∧ (docsCall "docs").Targets state.world.files "docs"
    ∧ ∀ other target', state.work? 1 = some (other, target') →
      state.world.files.namesOf (docsCall "docs").session.settings.dataFolder
        = state.world.files.namesOf other.session.settings.dataFolder → target' ≠ "docs"
  := by
  obtain ⟨htargets, hothers⟩ := keepsApart_of_run? (i := 0) sound_docsTree run?_docs rfl
  exact ⟨_, run?_docs, rfl, htargets, (hothers 1 (by decide)).1⟩

/-- Runs into one folder do not exclude each other if it is spelled in two ways. -/
theorem both_work_docs :
  ∃ state, (ofCalls (quietWorld docsTree) [docsCall "docs", docsCall "./docs"]).run? [0, 0, 1, 1]
      = some state
    ∧ state.work? 0 = some (docsCall "docs", "docs") ∧ state.work? 1 = some (docsCall "./docs", "./docs")
    ∧ state.world.files.namesOf "docs" = state.world.files.namesOf "./docs"
    ∧ (docsCall "docs").session.designLock "docs" ≠ (docsCall "./docs").session.designLock "./docs"
  := ⟨_, run?_docs, rfl, rfl, by decide +kernel, by decide +kernel⟩

end DesignRuns

end Scrutiny
