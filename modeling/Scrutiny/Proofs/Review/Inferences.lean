import Scrutiny.Proofs.Review.Regular
import Scrutiny.Proofs.Schedule.Tally

/-!
# How often the model is asked

Tasks that run at the same time, in whatever order they take their steps: no two of them work on one
fingerprint, no more of them ask the model than the limit admits, and once a usable reply was written
under a fingerprint, the model is not asked for it again.  A reply is usable if it can be read back
from its file, for which it must be nested at most 126 levels deep.
-/

namespace Scrutiny

variable {μ : Type} {session : Session μ}

namespace ReviewTask

/-- The fingerprint of the result of a task. -/
def fingerprint? (session : Session μ) : ReviewTask → Option Fingerprint
  | .audit _ chunk reviewer => some (session.keyOf chunk reviewer.id).fingerprint
  | .explain _ chunk => some (session.keyOf chunk Reviewer.whyExtractor.id).fingerprint
  | .invalidate _ => none

/-- Whether the cache is passed over when a result is looked for. -/
def refresh : ReviewTask → Bool
  | .audit refresh _ _ | .explain refresh _ => refresh
  | .invalidate _ => false

/-- Whether the task is to look for issues. -/
def isAudit : ReviewTask → Bool
  | .audit _ _ _ => true
  | _ => false

end ReviewTask

/-- The review that does a task. -/
theorem of_jobOf_eq_review {task : ReviewTask} {review : CachedReview μ TaskResult}
    (h : session.jobOf task = .review review) :
  task.fingerprint? session = some review.key.fingerprint ∧ task.refresh = review.refresh
    ∧ review.IsRegular
  := by
  cases task with
  | audit refresh chunk reviewer =>
      obtain rfl := Job.review.inj h
      use rfl, rfl
      apply (isRegular_issueReview session refresh chunk reviewer).map
  | explain refresh chunk =>
      obtain rfl := Job.review.inj h
      use rfl, rfl
      apply (isRegular_rationaleReview session refresh chunk).map
  | invalidate chunkId => cases h

/-- What one task keeps, every task of its kind can read back. -/
theorem isSome_readBack?_of_isAudit_eq {task other : ReviewTask}
    {review review' : CachedReview μ TaskResult} (htask : session.jobOf task = .review review)
    (hother : session.jobOf other = .review review') (hkind : task.isAudit = other.isAudit)
    {state : μ} {result : TaskResult} {kept : Json}
    (husable : (review.ask state).result = .ok (.usable result kept)) :
  (review'.readBack? kept.reread).isSome
  := by
  cases task with
  | audit refresh chunk reviewer =>
      cases other with
      | audit refresh' chunk' reviewer' =>
          obtain rfl := Job.review.inj htask
          obtain rfl := Job.review.inj hother
          obtain ⟨found, hfound, -⟩ := of_ask_map husable
          have hread := readBack?_issueReview hfound
          rw [CachedReview.map, Option.isSome_map,
            isSome_readBack?_issueReview session refresh' chunk' reviewer',
            ← isSome_readBack?_issueReview session refresh chunk reviewer, hread]
          rfl
      | _ => cases hkind
  | explain refresh chunk =>
      cases other with
      | explain refresh' chunk' =>
          obtain rfl := Job.review.inj htask
          obtain rfl := Job.review.inj hother
          obtain ⟨found, hfound, -⟩ := of_ask_map husable
          rw [CachedReview.map, Option.isSome_map]
          apply isSome_readBack?_rationaleReview hfound
      | audit => cases hkind
      | invalidate => cases hother
  | invalidate chunkId => cases htask

namespace Schedule

variable {world : World μ} {tasks : List ReviewTask} {order : List Nat}
  {state : Schedule μ TaskResult} {fingerprint : Fingerprint}

/-- A review of a fingerprint is between its search in the cache and its end. -/
def IsUnderWay {α : Type} (state : Schedule μ α) (i : Nat) (fingerprint : Fingerprint) : Prop :=
  ∃ review phase, state.jobs[i]? = some (.review review, phase)
    ∧ review.key.fingerprint = fingerprint ∧ phase.writerHolds? = some true

/-- A review of a fingerprint is about to ask the model. -/
def Asks {α : Type} (state : Schedule μ α) (i : Nat) (fingerprint : Fingerprint) : Prop :=
  ∃ review, state.jobs[i]? = some (.review review, .asking) ∧ review.key.fingerprint = fingerprint

/-- A review of a fingerprint takes the step in which it writes a usable reply. -/
def Writes {α : Type} (session : Session μ) (state next : Schedule μ α) (i : Nat)
    (fingerprint : Fingerprint) (kept : Json) : Prop :=
  ∃ review result, state.jobs[i]? = some (.review review, .keeping result kept)
    ∧ review.key.fingerprint = fingerprint ∧ state.step? session i = some next
    ∧ next.jobs[i]? = some (.review review, .atIndex (some result))

/-- The tasks of a fingerprint use the cache, and are of one kind. -/
structure Shares (session : Session μ) (tasks : List ReviewTask) (fingerprint : Fingerprint) : Prop where
  refresh_eq : ∀ task ∈ tasks, task.fingerprint? session = some fingerprint → task.refresh = false
  isAudit_eq : ∀ task ∈ tasks, ∀ other ∈ tasks, task.fingerprint? session = some fingerprint →
    other.fingerprint? session = some fingerprint → task.isAudit = other.isAudit

theorem exists_jobOf_eq {i : Nat} {job : Job μ TaskResult} {phase : JobPhase TaskResult}
    (hrun : (ofTasks session world tasks).run? session order = some state)
    (hjob : state.jobs[i]? = some (job, phase)) :
  ∃ task ∈ tasks, session.jobOf task = job
  := by
  have hjobs : state.jobs.map Prod.fst = tasks.map session.jobOf := by
    rw [map_fst_of_run? hrun, ofTasks, ofJobs, List.map_map]
    apply List.map_id
  have hmem : job ∈ state.jobs.map Prod.fst := List.mem_map_of_mem (List.mem_of_getElem? hjob)
  rw [hjobs] at hmem
  exact List.mem_map.mp hmem

theorem isStocked_of_run? {α : Type} {start last : Schedule μ α} (h : start.IsStocked session)
    (hnow : session.clock.seconds < 2 ^ 64) (hrun : start.run? session order = some last) :
  last.IsStocked session
  := by
  apply of_run? (P := (IsStocked session ·)) _ h hrun
  intro i _ state next hstate hstep
  apply isStocked_of_step? hstate hnow hstep

theorem isStocked_ofTasks (hroot : world.files.HasFolder session.cache.root) (tasks : List ReviewTask) :
  (ofTasks session world tasks).IsStocked session
  := by
  apply isStocked_ofJobs hroot
  intro review hreview
  obtain ⟨task, -, htask⟩ := List.mem_map.mp hreview
  apply (of_jobOf_eq_review htask).2.2

/-! ### What holds in every state -/

theorem Sound.eq_of_isUnderWay {α : Type} {state : Schedule μ α} (h : state.Sound session) {i j : Nat}
    (hi : state.IsUnderWay i fingerprint) (hj : state.IsUnderWay j fingerprint) :
  i = j
  := by
  obtain ⟨review, phase, hi, hkey, hphase⟩ := hi
  obtain ⟨other, phase', hj, hkey', hphase'⟩ := hj
  apply h.eq_of_writerHolds? hi hj (hkey.trans hkey'.symm) hphase hphase'

/-! ### After a usable reply -/

theorem isSettled_of_run? {α : Type} {start last : Schedule μ α}
    (h : start.IsSettled session fingerprint) (hstocked : start.IsStocked session)
    (hnow : session.clock.seconds < 2 ^ 64)
    (hreviews : ∀ i ∈ order, ∀ chunkId phase, start.jobs[i]? ≠ some (.invalidation chunkId, phase))
    (hrun : start.run? session order = some last) :
  last.IsSettled session fingerprint
  := by
  have hinvariant : last.IsSettled session fingerprint ∧ last.IsStocked session
      ∧ last.jobs.map Prod.fst = start.jobs.map Prod.fst := by
    apply of_run? (P := fun state => state.IsSettled session fingerprint ∧ state.IsStocked session
      ∧ state.jobs.map Prod.fst = start.jobs.map Prod.fst) _ ⟨h, hstocked, rfl⟩ hrun
    rintro i hi state next ⟨hsettled, hstocked, hjobs⟩ hstep
    obtain ⟨job, phase, hjob, -⟩ := step?_eq_some_iff.mp hstep
    cases job with
    | review review =>
        use isSettled_of_step? hsettled hstocked hnow hjob hstep
        use isStocked_of_step? hstocked hnow hstep
        rw [map_fst_of_step? hstep, hjobs]
    | invalidation chunkId =>
        have hfst := congrArg (·[i]?) hjobs
        rw [List.getElem?_map, List.getElem?_map, hjob, Option.map_some] at hfst
        obtain ⟨⟨_, phase'⟩, hsame, rfl⟩ := Option.map_eq_some_iff.mp hfst.symm
        cases hreviews i hi chunkId phase' hsame
  exact hinvariant.1

/-- Once a usable reply was written, no task asks for it again. -/
theorem not_asks_of_writes (hroot : world.files.HasFolder session.cache.root)
    (hnow : session.clock.seconds < 2 ^ 64)
    (hrun : (ofTasks session world tasks).run? session order = some state)
    (hshares : Shares session tasks fingerprint) {i : Nat} {kept : Json}
    {next last : Schedule μ TaskResult} (hwrites : Writes session state next i fingerprint kept)
    (hdepth : kept.depth ≤ 126) {later : List Nat}
    (hreviews : ∀ j ∈ later, ∀ chunkId phase, state.jobs[j]? ≠ some (.invalidation chunkId, phase))
    (hlater : next.run? session later = some last) (j : Nat) :
  ¬ last.Asks j fingerprint
  := by
  have hsound := sound_of_run? (sound_ofJobs session world _) hrun
  have hstocked := isStocked_of_run? (isStocked_ofTasks hroot tasks) hnow hrun
  obtain ⟨review, result, hjob, rfl, hstep, hkept⟩ := hwrites
  obtain ⟨task, htask, hreview⟩ := exists_jobOf_eq hrun hjob
  obtain ⟨hkey, -, -⟩ := of_jobOf_eq_review hreview
  obtain ⟨model, husable⟩ := hstocked.usable i review result kept hjob
  have hsettled : next.IsSettled session review.key.fingerprint := by
    apply isSettled_of_kept hsound hstocked hnow hjob hdepth hstep hkept
    intro k other phase hother hsame
    obtain ⟨task', htask', hreview'⟩ := exists_jobOf_eq hrun hother
    obtain ⟨hkey', hrefresh, -⟩ := of_jobOf_eq_review hreview'
    rw [hsame] at hkey'
    use hrefresh ▸ hshares.refresh_eq task' htask' hkey'
    apply isSome_readBack?_of_isAudit_eq hreview hreview'
      (hshares.isAudit_eq task htask task' htask' hkey hkey') husable
  have hsame : ∀ k ∈ later, ∀ chunkId phase, next.jobs[k]? ≠ some (.invalidation chunkId, phase) := by
    intro k hk chunkId phase hinvalidation
    obtain ⟨world', phase', -, rfl⟩ := exists_move_of_step? hjob hstep
    rcases of_getElem?_withPhase hjob hinvalidation with ⟨-, heq, -⟩ | ⟨-, hold⟩
    · cases heq
    · apply hreviews k hk chunkId phase hold
  have hlast := isSettled_of_run? hsettled (isStocked_of_step? hstocked hnow hstep) hnow hsame hlater
  rintro ⟨other, hother, hotherKey⟩
  cases hlast.isFetching_eq j other .asking hother hotherKey

/-! ### Tasks of one fingerprint -/

/-- Tasks of one fingerprint for which there is nothing in the cache, and to each of which the model
would give a good reply if it were asked first. -/
structure AreFresh (session : Session μ) (world : World μ) (tasks : List ReviewTask)
    (fingerprint : Fingerprint) : Prop extends Shares session tasks fingerprint where
  fingerprint?_eq : ∀ task ∈ tasks, task.fingerprint? session = some fingerprint
  lookup_eq : session.cache.lookup world.files fingerprint = none
  canKeep : session.cache.CanKeep world.files fingerprint
  exists_usable : ∀ task ∈ tasks, ∀ review, session.jobOf task = .review review → ∃ result kept,
    (review.ask world.model).result = .ok (.usable result kept) ∧ kept.depth ≤ 126

theorem AreFresh.isFresh (h : AreFresh session world tasks fingerprint) :
  IsFresh session world fingerprint (tasks.map session.jobOf)
  := by
  constructor
  · intro job hjob
    obtain ⟨task, htask, rfl⟩ := List.mem_map.mp hjob
    have hkey := h.fingerprint?_eq task htask
    cases hreview : session.jobOf task with
    | invalidation chunkId =>
        cases task with
        | invalidate => cases hkey
        | _ => cases hreview
    | review review =>
        obtain ⟨hsame, hrefresh, hregular⟩ := of_jobOf_eq_review hreview
        have hfingerprint : review.key.fingerprint = fingerprint :=
          Option.some.inj (hsame.symm.trans hkey)
        use review, rfl, hregular, hfingerprint
        use hrefresh ▸ h.refresh_eq task htask hkey
        rw [CachedReview.found?_eq, Cache.value?, hfingerprint, h.lookup_eq]
        split <;> rfl
  · apply h.canKeep
  · intro review hreview
    obtain ⟨task, htask, hjob⟩ := List.mem_map.mp hreview
    obtain ⟨result, kept, husable, hdepth⟩ := h.exists_usable task htask review hjob
    use result, kept, husable, hdepth
    intro other hother
    obtain ⟨task', htask', hjob'⟩ := List.mem_map.mp hother
    apply isSome_readBack?_of_isAudit_eq hjob hjob' _ husable
    apply h.isAudit_eq task htask task' htask' (h.fingerprint?_eq task htask)
      (h.fingerprint?_eq task' htask')

/-! ### All together -/

/-- In every state that tasks can reach: at most one task of a fingerprint is between its search and
its end, the limit is kept, and the tasks can be brought to their end.  Once a task has written a
usable reply, no task of its fingerprint asks for it again while nothing is removed; and tasks of one
fresh fingerprint whose first reply is good ask the model once, and all others find the reply. -/
theorem inferences_of_tasks (hroot : world.files.HasFolder session.cache.root)
    (hnow : session.clock.seconds < 2 ^ 64)
    (hrun : (ofTasks session world tasks).run? session order = some state) :
  (∀ fingerprint i j, state.IsUnderWay i fingerprint → state.IsUnderWay j fingerprint → i = j)
    ∧ state.asking.length ≤ session.limit
    ∧ (∃ later last, state.run? session later = some last ∧ last.IsOver)
    ∧ (∀ fingerprint i kept next later last, Shares session tasks fingerprint →
      Writes session state next i fingerprint kept → kept.depth ≤ 126 →
      (∀ j ∈ later, ∀ chunkId phase, state.jobs[j]? ≠ some (.invalidation chunkId, phase)) →
      next.run? session later = some last → ∀ j, ¬ last.Asks j fingerprint)
    ∧ ∀ fingerprint, AreFresh session world tasks fingerprint → tasks ≠ [] → state.IsOver →
      state.world.tally.calls = world.tally.calls + 1
        ∧ state.world.tally.hits = world.tally.hits + (tasks.length - 1)
  := by
  have hsound := sound_of_run? (sound_ofJobs session world _) hrun
  constructor
  · intro fingerprint i j
    apply hsound.eq_of_isUnderWay
  use hsound.length_asking_le, hsound.exists_isOver
  constructor
  · intro fingerprint i kept next later last hshares hwrites hdepth hreviews hlater
    apply not_asks_of_writes hroot hnow hrun hshares hwrites hdepth hreviews hlater
  · intro fingerprint hfresh hne hover
    obtain ⟨hcalls, hhits⟩ := tally_of_isFresh hfresh.isFresh (by simpa using hne) hroot hnow hrun hover
    rw [List.length_map] at hhits
    have hpos := List.length_pos_iff.mpr hne
    use hcalls
    omega

/-- Three tasks of one fingerprint in a new cache ask the model once. -/
theorem inferences_of_tasks_quiet :
  ∃ tree order state, Cache.openAt "cache" .empty = (.ok ⟨"cache"⟩, tree)
    ∧ (ofTasks quietSession (quietWorld tree)
        (List.replicate 3 (.audit false quietChunk .security))).run? quietSession order = some state
    ∧ state.IsOver ∧ state.world.tally.calls = 1 ∧ state.world.tally.hits = 2
  := by
  obtain ⟨tree, hopen, hnew⟩ := Cache.exists_isNew
  have hsound := sound_ofJobs quietSession (quietWorld tree)
    ((List.replicate 3 (.audit false quietChunk .security)).map quietSession.jobOf)
  obtain ⟨order, state, hrun, hover⟩ := hsound.exists_isOver
  have hfresh : AreFresh quietSession (quietWorld tree)
      (List.replicate 3 (.audit false quietChunk .security))
      (quietSession.keyOf quietChunk Reviewer.security.id).fingerprint := by
    have hall {task : ReviewTask}
        (h : task ∈ List.replicate 3 (ReviewTask.audit false quietChunk .security)) :
        task = .audit false quietChunk .security := List.eq_of_mem_replicate h
    constructor
    · constructor
      · intro task htask _
        rw [hall htask, ReviewTask.refresh]
      · intro task htask other hother _ _
        rw [hall htask, hall hother]
    · intro task htask
      rw [hall htask, ReviewTask.fingerprint?]
    · apply hnew.lookup_eq_none (Fingerprint.isValid_compute _ _ _ _)
    · apply hnew.canKeep
    · intro task htask review hreview
      rw [hall htask] at hreview
      obtain rfl := Job.review.inj hreview
      obtain ⟨reply, hdepth, hreply⟩ := exists_ask_quietSession
      use .issues [], reply, ?_, hdepth
      change Except.map _ _ = _
      rw [hreply]
      rfl
  obtain ⟨-, -, -, -, htally⟩ := inferences_of_tasks hnew.hasFolder (by decide) hrun
  obtain ⟨hcalls, hhits⟩ := htally _ hfresh (by decide) hover
  exact ⟨tree, order, state, hopen, hrun, hover, hcalls, hhits⟩

/-- An object with a list of issues that is nested 127 levels deep. -/
def nestedReply : List Char :=
  "\x7b\"issues\": [], \"x\": ".toList ++ List.replicate 126 '[' ++ List.replicate 126 ']' ++ ['\x7d']

/-- A session whose model always gives this reply. -/
def nestedSession : Session Unit := replyingSession (String.ofList nestedReply)

/-- The task of looking for issues in a chunk, in such a session. -/
def nestedReview : CachedReview Unit TaskResult :=
  (nestedSession.issueReview false quietChunk .security).map .issues

theorem exists_ask_nestedSession :
  ∃ reply : Json, reply.depth = 127 ∧ ∀ refresh chunk,
    ((nestedSession.issueReview refresh chunk .security).ask ()).result = .ok (.usable [] reply)
  := by
  have hshape : (Reply.objectIn? nestedReply).map
      (fun reply => (Issue.ofReply? reply Reviewer.security.issueType, reply.depth))
      = some (some [], 127) := by
    decide +kernel
  obtain ⟨reply, hreply, hpair⟩ := Option.map_eq_some_iff.mp hshape
  obtain ⟨hissues, hdepth⟩ := Prod.mk.inj hpair
  use reply, hdepth
  apply ask_replyingSession _ hissues
  rw [String.toList_ofList]
  apply hreply

/-- Three tasks of one fresh fingerprint get good replies, which can be kept but are nested 127 levels deep:
each of them asks the model. -/
theorem asked_again_nestedSession :
  ∃ tree reply order state, Cache.openAt "cache" .empty = (.ok ⟨"cache"⟩, tree)
    ∧ nestedSession.cache.CanKeep tree
      (nestedSession.keyOf quietChunk Reviewer.security.id).fingerprint
    ∧ ((nestedSession.issueReview false quietChunk .security).ask ()).result = .ok (.usable [] reply)
    ∧ reply.depth = 127
    ∧ (ofTasks nestedSession (quietWorld tree)
        (List.replicate 3 (.audit false quietChunk .security))).run? nestedSession order = some state
    ∧ state.IsOver ∧ state.world.tally.calls = 3 ∧ state.world.tally.hits = 0
  := by
  obtain ⟨tree, hopen, hnew⟩ := Cache.exists_isNew
  obtain ⟨reply, hdepth, hreply⟩ := exists_ask_nestedSession
  obtain ⟨order, state, hrun, hover⟩ := (sound_ofJobs nestedSession (quietWorld tree)
    ((List.replicate 3 nestedReview).map .review)).exists_isOver
  have hregular : ∀ review ∈ List.replicate 3 nestedReview, review.IsRegular := by
    intro review hreview
    rw [List.eq_of_mem_replicate hreview]
    apply (isRegular_issueReview nestedSession false quietChunk .security).map
  have hvalue : ∀ review ∈ List.replicate 3 nestedReview,
      nestedSession.cache.value? (quietWorld tree).files review.key.fingerprint = none := by
    intro review hreview
    exact congrArg (Option.map CacheEntry.result) (hnew.lookup_eq_none (hregular review hreview).isValid)
  have hdeep : ∀ review ∈ List.replicate 3 nestedReview, ∀ model result kept,
      (review.ask model).result = .ok (.usable result kept) → 126 < kept.depth := by
    intro review hreview model result kept husable
    rw [List.eq_of_mem_replicate hreview] at husable
    obtain ⟨found, hfound, -⟩ := of_ask_map husable
    obtain ⟨-, rfl⟩ := Judgement.usable.inj (Except.ok.inj ((hreply false quietChunk).symm.trans hfound))
    omega
  obtain ⟨hcalls, hhits⟩ :=
    tally_of_depth_gt hnew.hasFolder (by decide) hregular hvalue hdeep hrun hover
  exact ⟨tree, reply, order, state, hopen, hnew.canKeep _, hreply false quietChunk, hdepth, hrun, hover,
    hcalls, hhits⟩

end Schedule

end Scrutiny
