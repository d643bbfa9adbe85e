import Scrutiny.Proofs.Schedule.FirstReply
import Scrutiny.Proofs.Schedule.Outcome

/-!
# Repeated reviews

If all that reviews were to keep was kept and can be read back, each review that did not fail has left
its result.  Whatever the model has answered, the same reviews find these results when they are
carried out again, and do not ask the model.
-/

namespace Scrutiny

variable {μ α : Type} {session : Session μ}

namespace Schedule

/-- Each step that is to keep a reply keeps one that can be read back. -/
def KeepsReplies (session : Session μ) : Schedule μ α → List Nat → Prop
  | _, [] => True
  | state, i :: rest => ∀ next, state.step? session i = some next →
    (∀ review result kept, state.jobs[i]? = some (.review review, .keeping result kept) →
      kept.depth ≤ 126 ∧ next.jobs[i]? = some (.review review, .atIndex (some result)))
    ∧ KeepsReplies session next rest

/-- What each step keeps that keeps its reply, a run keeps. -/
theorem of_run?_of_keepsReplies {P : Schedule μ α → Prop} {order : List Nat}
    {state last : Schedule μ α}
    (hstep : ∀ i state next, P state → state.step? session i = some next →
      (∀ review result kept, state.jobs[i]? = some (.review review, .keeping result kept) →
        kept.depth ≤ 126 ∧ next.jobs[i]? = some (.review review, .atIndex (some result))) → P next)
    (hkeeps : state.KeepsReplies session order) (h : P state)
    (hrun : state.run? session order = some last) :
  P last
  := by
  induction order generalizing state with
  | nil =>
      obtain rfl : state = last := Option.some.inj hrun
      apply h
  | cons i rest ih =>
      obtain ⟨middle, hmiddle, hrest⟩ := Option.bind_eq_some_iff.mp hrun
      obtain ⟨hkept, hothers⟩ := hkeeps middle hmiddle
      apply ih hothers _ hrest
      apply hstep i state middle h hmiddle hkept

end Schedule

namespace CachedReview

/-- What a review has left in a phase: nothing while it fetches a result, and afterwards its result,
unless it has failed. -/
def HasLeft (review : CachedReview μ α) (found? : Option α) : JobPhase α → Prop
  | .idle | .atWriter | .searching | .done (.error _) => True
  | .atPermit | .asking | .keeping _ _ => found? = none
  | .atIndex result | .indexing result => ∃ value, result = some value ∧ found? = some value
  | .done (.ok result) => ∃ value, result = some value
    ∧ (found? = some value ∨ ∃ reason, value = review.failed reason)

variable {review : CachedReview μ α} {found? found?' : Option α} {phase : JobPhase α}

theorem HasLeft.eq_none (h : review.HasLeft found? phase) (hphase : phase.isFetching) :
  found? = none
  := by
  cases phase with
  | atPermit | asking | keeping => exact h
  | _ => cases hphase

/-- A review for which there is nothing has left nothing but failures, and so whatever is left by
another one makes no difference to it. -/
theorem HasLeft.of_eq_none (h : review.HasLeft found? phase) (hnone : found? = none)
    (hphase : phase.writerHolds? ≠ some true) :
  review.HasLeft found?' phase
  := by
  cases phase with
  | idle | atWriter | searching => trivial
  | done result =>
      cases result with
      | error e => trivial
      | ok result =>
          obtain ⟨value, rfl, hfound | hfailed⟩ := h
          · rw [hnone] at hfound
            cases hfound
          · exact ⟨value, rfl, .inr hfailed⟩
  | _ => cases hphase rfl

end CachedReview

namespace Schedule

variable {reviews : List (CachedReview μ α)} {state next : Schedule μ α} {i : Nat}

/-- Reviews that use the cache, where those of one fingerprint can read the same values. -/
structure AreReadable (reviews : List (CachedReview μ α)) : Prop where
  isFaithful : ∀ review ∈ reviews, review.IsFaithful
  refresh_eq : ∀ review ∈ reviews, review.refresh = false
  isSome_eq : ∀ review ∈ reviews, ∀ other ∈ reviews,
    review.key.fingerprint = other.key.fingerprint → ∀ kept,
    (review.readBack? kept).isSome = (other.readBack? kept).isSome

/-- Each review has left what it has to leave in its phase. -/
structure HasResults (session : Session μ) (reviews : List (CachedReview μ α)) (state : Schedule μ α) :
    Prop where
  jobs_eq : state.jobs.map Prod.fst = reviews.map Job.review
  hasLeft : ∀ (i : Nat) (review : CachedReview μ α) (phase : JobPhase α),
    state.jobs[i]? = some (.review review, phase) →
    review.HasLeft (review.found? session.cache state.world.files) phase

theorem AreReadable.isSome_found?_eq (h : AreReadable reviews) {review other : CachedReview μ α}
    (hreview : review ∈ reviews) (hother : other ∈ reviews)
    (hkey : review.key.fingerprint = other.key.fingerprint) (tree : FileTree) :
  (review.found? session.cache tree).isSome = (other.found? session.cache tree).isSome
  := by
  rw [CachedReview.found?_eq, CachedReview.found?_eq, h.refresh_eq review hreview,
    h.refresh_eq other hother, hkey]
  cases session.cache.value? tree other.key.fingerprint with
  | none => rfl
  | some kept => exact h.isSome_eq review hreview other hother hkey kept

theorem hasResults_ofJobs (session : Session μ) (world : World μ) (reviews : List (CachedReview μ α)) :
  (ofJobs session world (reviews.map .review)).HasResults session reviews
  := by
  constructor
  · apply map_fst_ofJobs
  · intro i review phase hjob
    obtain rfl := phase_eq_idle_of_ofJobs hjob
    trivial

end Schedule

/-- A review that keeps its reply has left what it has to leave after each of its moves. -/
theorem CachedReview.hasLeft_of_move {review : CachedReview μ α} (h : review.IsFaithful)
    (hrefresh : review.refresh = false) {world world' : World μ} {phase phase' : JobPhase α}
    (hleft : review.HasLeft (review.found? session.cache world.files) phase)
    (husable : ∀ result kept, phase = .keeping result kept →
      ∃ model, (review.ask model).result = .ok (.usable result kept))
    (hkept : ∀ result kept, phase = .keeping result kept →
      kept.depth ≤ 126 ∧ phase' = .atIndex (some result))
    (hvalue : session.cache.value? world'.files review.key.fingerprint
      = valueAfter (session.cache.value? world.files review.key.fingerprint) phase phase')
    (hmove : Move session world (.review review) phase world' phase') :
  review.HasLeft (review.found? session.cache world'.files) phase'
  := by
  have hsame (hunchanged : valueAfter (session.cache.value? world.files review.key.fingerprint) phase
      phase' = session.cache.value? world.files review.key.fingerprint) :
      review.found? session.cache world'.files = review.found? session.cache world.files := by
    apply found?_congr
    rw [hvalue, hunchanged]
  cases hmove with
  | ask | take | fatal => trivial
  | hit hfound =>
      rw [hsame rfl]
      exact ⟨_, rfl, .inl hfound⟩
  | miss hfound => exact hfound
  | permit => exact hleft
  | usable hask =>
      rw [hsame rfl]
      exact hleft
  | useless hask => exact ⟨_, rfl, .inr ⟨_, rfl⟩⟩
  | failure hask => exact ⟨_, rfl, .inr ⟨_, rfl⟩⟩
  | @kept _ result kept files hwrite =>
      obtain ⟨hdepth, -⟩ := hkept result kept rfl
      obtain ⟨model, hmodel⟩ := husable result kept rfl
      use result, rfl
      rw [found?_eq, hrefresh, hvalue, valueAfter, Cache.storedValue?, if_pos hdepth]
      apply h.readBack?_eq model result kept hmodel
  | @notKept _ result kept files e hwrite =>
      cases (hkept result kept rfl).2
  | takeIndex => exact hleft
  | listed hlisted =>
      obtain ⟨value, rfl, hfound⟩ := hleft
      rw [hsame rfl]
      exact ⟨value, rfl, .inl hfound⟩

namespace Schedule

variable {reviews : List (CachedReview μ α)} {state next : Schedule μ α} {i : Nat}

theorem hasResults_of_step? (h : state.HasResults session reviews) (hreads : AreReadable reviews)
    (hsound : state.Sound session) (hstocked : state.IsStocked session)
    (hnow : session.clock.seconds < 2 ^ 64) (hstep : state.step? session i = some next)
    (hkept : ∀ review result kept, state.jobs[i]? = some (.review review, .keeping result kept) →
      kept.depth ≤ 126 ∧ next.jobs[i]? = some (.review review, .atIndex (some result))) :
  next.HasResults session reviews
  := by
  have hjobs := map_fst_of_step? hstep
  obtain ⟨job, phase, hjob, world, phase', hmove, -, rfl⟩ := step?_eq_some_iff.mp hstep
  obtain ⟨review, hreview, rfl⟩ := exists_review_of_getElem? h.jobs_eq hjob
  have heffect := hstocked.effect hnow hjob hmove
  have hself : (withPhase state.jobs i phase')[i]? = some (.review review, phase') := by
    rw [getElem?_withPhase hjob, if_pos rfl]
  constructor
  · rw [hjobs, h.jobs_eq]
  · intro j other later hlater
    rcases of_getElem?_withPhase hjob hlater with ⟨-, heq, rfl⟩ | ⟨hne, hlater⟩
    · obtain rfl := Job.review.inj heq
      apply other.hasLeft_of_move (hreads.isFaithful other hreview) (hreads.refresh_eq other hreview)
        (h.hasLeft i other phase hjob) _ _ heffect.value?_self hmove
      · rintro result kept rfl
        apply hstocked.usable i other result kept hjob
      · rintro result kept rfl
        obtain ⟨hdepth, hnext⟩ := hkept other result kept hjob
        use hdepth
        obtain ⟨-, hphase⟩ := Prod.mk.inj (Option.some.inj (hself.symm.trans hnext))
        apply hphase
    · have hother := h.hasLeft j other later hlater
      have hunchanged (hvalue : session.cache.value? world.files other.key.fingerprint
          = session.cache.value? state.world.files other.key.fingerprint) :
          other.HasLeft (other.found? session.cache world.files) later := by
        rw [CachedReview.found?_congr hvalue]
        apply hother
      by_cases hkey : other.key.fingerprint = review.key.fingerprint
      · cases hfetching : phase.isFetching with
        | false =>
            apply hunchanged
            rw [hkey, heffect.value?_self, valueAfter_of_not_isFetching hfetching]
        | true =>
            apply hother.of_eq_none
            · have hsame : (other.found? session.cache state.world.files).isSome
                  = (review.found? session.cache state.world.files).isSome :=
                hreads.isSome_found?_eq (mem_of_getElem? h.jobs_eq hlater) hreview hkey _
              rw [(h.hasLeft i review phase hjob).eq_none hfetching] at hsame
              exact Option.isNone_iff_eq_none.mp (Option.isSome_eq_false_iff.mp hsame)
            · intro hholds
              exact hne (hsound.eq_of_writerHolds? hlater hjob hkey hholds
                (JobPhase.writerHolds?_of_isFetching hfetching))
      · apply hunchanged
        apply heffect.value?_ne _ (hreads.isFaithful other (mem_of_getElem? h.jobs_eq hlater)).isValid hkey

/-- Reviews that have kept their replies have left their results, but for those that failed. -/
theorem forall₂_of_keepsReplies {world : World μ} (hreads : AreReadable reviews)
    (hroot : world.files.HasFolder session.cache.root) (hnow : session.clock.seconds < 2 ^ 64)
    {order : List Nat}
    (hkeeps : (ofJobs session world (reviews.map .review)).KeepsReplies session order)
    (hrun : (ofJobs session world (reviews.map .review)).run? session order = some state)
    {found : List α} (houtcome : state.outcome? = some (.ok found)) :
  List.Forall₂ (fun review value => review.found? session.cache state.world.files = some value
    ∨ ∃ reason, value = review.failed reason) reviews found
  := by
  have hinvariant : state.HasResults session reviews ∧ state.Sound session
      ∧ state.IsStocked session := by
    apply of_run?_of_keepsReplies (P := fun state => state.HasResults session reviews
      ∧ state.Sound session ∧ state.IsStocked session) _ hkeeps _ hrun
    · rintro i state next ⟨hresults, hsound, hstocked⟩ hstep hkept
      exact ⟨hasResults_of_step? hresults hreads hsound hstocked hnow hstep hkept,
        sound_of_step? hsound hstep, isStocked_of_step? hstocked hnow hstep⟩
    · use hasResults_ofJobs session world reviews, sound_ofJobs session world _
      apply isStocked_ofReviews hroot
      intro _ hreview
      apply (hreads.isFaithful _ hreview).toIsRegular
  obtain ⟨hresults, hsound, -⟩ := hinvariant
  apply forall₂_of_outcome?_eq_ok hsound hresults.jobs_eq _ houtcome
  intro i review result hjob
  exact hresults.hasLeft i review _ hjob

/-- Replies that can be read back are kept if nothing stands in their way. -/
theorem keepsReplies_of_canKeep (hjobs : state.jobs.map Prod.fst = reviews.map Job.review)
    (hstocked : state.IsStocked session) (hnow : session.clock.seconds < 2 ^ 64)
    (hdepth : ∀ review ∈ reviews, ∀ model result kept,
      (review.ask model).result = .ok (.usable result kept) → kept.depth ≤ 126)
    (hcan : ∀ review ∈ reviews, session.cache.CanKeep state.world.files review.key.fingerprint)
    (order : List Nat) :
  state.KeepsReplies session order
  := by
  induction order generalizing state with
  | nil => trivial
  | cons i rest ih =>
      intro next hstep
      have hstocked' := isStocked_of_step? hstocked hnow hstep
      have hjobs' := (map_fst_of_step? hstep).trans hjobs
      obtain ⟨job, phase, hjob, world, phase', hmove, -, rfl⟩ := step?_eq_some_iff.mp hstep
      obtain ⟨review, hreview, rfl⟩ := exists_review_of_getElem? hjobs hjob
      have heffect := hstocked.effect hnow hjob hmove
      constructor
      · intro other result kept hother
        obtain ⟨heq, rfl⟩ := Prod.mk.inj (Option.some.inj (hjob.symm.trans hother))
        obtain rfl := Job.review.inj heq
        obtain ⟨model, hask⟩ := hstocked.usable i review result kept hjob
        use hdepth review hreview model result kept hask
        have hself : (withPhase state.jobs i phase')[i]? = some (.review review, phase') := by
          rw [getElem?_withPhase hjob, if_pos rfl]
        refine hself.trans ?_
        have hvalid := (hstocked.isRegular i review _ hjob).isValid
        cases hmove with
        | kept hwrite => rfl
        | notKept hwrite =>
            obtain ⟨written, hwritten⟩ := (Cache.writeJson_entryPath_isOk_iff hstocked.hasFolder hvalid
              _).mpr (hcan review hreview)
            rw [hwritten] at hwrite
            cases congrArg Prod.fst hwrite
      · apply ih hjobs' hstocked'
        intro other hother
        apply (heffect.canKeep_iff other.key.fingerprint).mpr
        apply hcan other hother

end Schedule

/-! ### Carrying them out again -/

/-- A review in the phase has not yet looked into the cache, or has found its result there. -/
def JobPhase.IsServed (found? : Option α) : JobPhase α → Prop
  | .idle | .atWriter | .searching => True
  | .done result => ∃ value, result = .ok (some value) ∧ found? = some value
  | _ => False

namespace Schedule

variable {reviews : List (CachedReview μ α)} {state next : Schedule μ α} {start : World μ} {i : Nat}

/-- All results so far are from the cache, and nothing but their number has changed. -/
structure FindsAll (session : Session μ) (start : World μ) (reviews : List (CachedReview μ α))
    (state : Schedule μ α) : Prop where
  jobs_eq : state.jobs.map Prod.fst = reviews.map Job.review
  files_eq : state.world.files = start.files
  model_eq : state.world.model = start.model
  calls_eq : state.world.tally.calls = start.tally.calls
  failures_eq : state.world.tally.failures = start.tally.failures
  hits_eq : state.world.tally.hits = start.tally.hits + state.arrived
  isServed : ∀ (i : Nat) (review : CachedReview μ α) (phase : JobPhase α),
    state.jobs[i]? = some (.review review, phase) →
    phase.IsServed (review.found? session.cache start.files)

theorem findsAll_ofJobs (session : Session μ) (start : World μ) (reviews : List (CachedReview μ α)) :
  (ofJobs session start (reviews.map .review)).FindsAll session start reviews
  := by
  constructor
  · apply map_fst_ofJobs
  · rfl
  · rfl
  · rfl
  · rfl
  · have hnone : (ofJobs session start (reviews.map Job.review)).arrived = 0 := by
      apply List.countP_eq_zero.mpr
      intro pair hpair
      obtain ⟨_, -, rfl⟩ := List.mem_map.mp hpair
      exact Bool.false_ne_true
    rw [hnone]
    rfl
  · intro i review phase hjob
    obtain rfl := phase_eq_idle_of_ofJobs hjob
    trivial

theorem findsAll_of_step? (h : state.FindsAll session start reviews)
    (hfound : ∀ review ∈ reviews, (review.found? session.cache start.files).isSome)
    (hstep : state.step? session i = some next) :
  next.FindsAll session start reviews
  := by
  have hjobs := map_fst_of_step? hstep
  obtain ⟨job, phase, hjob, world, phase', hmove, -, rfl⟩ := step?_eq_some_iff.mp hstep
  obtain ⟨review, hreview, rfl⟩ := exists_review_of_getElem? h.jobs_eq hjob
  have hserved := h.isServed i review phase hjob
  have hcount := arrived_after hjob world phase'
  have hothers (hself : phase'.IsServed (review.found? session.cache start.files)) :
      ∀ (j : Nat) (other : CachedReview μ α) (later : JobPhase α),
        (withPhase state.jobs i phase')[j]? = some (.review other, later) →
        later.IsServed (other.found? session.cache start.files) := by
    intro j other later hlater
    rcases of_getElem?_withPhase hjob hlater with ⟨-, heq, rfl⟩ | ⟨-, hlater⟩
    · obtain rfl := Job.review.inj heq
      apply hself
    · apply h.isServed j other later hlater
  rw [h.jobs_eq] at hjobs
  cases hmove with
  | ask | take =>
      refine ⟨hjobs, h.files_eq, h.model_eq, h.calls_eq, h.failures_eq, ?_, hothers trivial⟩
      change _ + 0 = _ + 0 at hcount
      change state.world.tally.hits = _
      rw [h.hits_eq]
      omega
  | hit hhit =>
      rw [h.files_eq] at hhit
      refine ⟨hjobs, h.files_eq, h.model_eq, h.calls_eq, h.failures_eq, ?_, hothers ⟨_, rfl, hhit⟩⟩
      change _ + 0 = _ + 1 at hcount
      change state.world.tally.hits + 1 = _
      rw [h.hits_eq]
      omega
  | miss hmiss =>
      rw [h.files_eq] at hmiss
      have hsome := hfound review hreview
      rw [hmiss] at hsome
      cases hsome
  | _ => cases hserved

/-- Reviews that have their results in the cache find them there, and do nothing else. -/
theorem of_found? {found : List α}
    (hfound : List.Forall₂ (fun review value => CachedReview.found? review session.cache start.files
      = some value) reviews found) {order : List Nat}
    (hrun : (ofJobs session start (reviews.map .review)).run? session order = some state)
    {result : Except ReviewError (List α)} (houtcome : state.outcome? = some result) :
  result = .ok found ∧ state.world.files = start.files ∧ state.world.model = start.model
    ∧ state.world.tally = { start.tally with hits := start.tally.hits + reviews.length }
  := by
  have hinvariant : state.FindsAll session start reviews := by
    apply of_run? (P := (FindsAll session start reviews ·)) _ (findsAll_ofJobs session start reviews) hrun
    intro i _ state next hstate hstep
    apply findsAll_of_step? hstate _ hstep
    intro review hreview
    obtain ⟨value, -, hvalue⟩ := exists_of_mem_left hfound hreview
    rw [hvalue, Option.isSome_some]
  cases result with
  | error e =>
      obtain ⟨i, job, hjob⟩ := exists_of_outcome?_eq_error houtcome
      obtain ⟨review, -, rfl⟩ := exists_review_of_getElem? hinvariant.jobs_eq hjob
      obtain ⟨value, heq, -⟩ := hinvariant.isServed i review _ hjob
      cases heq
  | ok found' =>
      have hsound := sound_of_run? (sound_ofJobs session start _) hrun
      have hserved : List.Forall₂ (fun review value =>
          CachedReview.found? review session.cache start.files = some value) reviews found' := by
        apply forall₂_of_outcome?_eq_ok hsound hinvariant.jobs_eq _ houtcome
        intro i review result hjob
        obtain ⟨value, heq, hvalue⟩ := hinvariant.isServed i review _ hjob
        exact ⟨value, Except.ok.inj heq, hvalue⟩
      have hunique : found' = found := by
        apply List.right_unique_forall₂' _ hserved hfound
        intro review value value' hvalue hvalue'
        apply Option.some.inj (hvalue.symm.trans hvalue')
      have harrived : state.arrived = reviews.length := by
        have hlength := congrArg List.length hinvariant.jobs_eq
        rw [List.length_map, List.length_map] at hlength
        rw [← hlength]
        apply List.countP_eq_length.mpr
        intro pair hpair
        apply JobPhase.hasArrived_of_isDone (isOver_of_outcome?_eq_ok houtcome pair hpair)
      use congrArg Except.ok hunique, hinvariant.files_eq, hinvariant.model_eq
      rw [← harrived, ← hinvariant.hits_eq]
      dsimp only
      rw [← hinvariant.calls_eq, ← hinvariant.failures_eq]

end Schedule

end Scrutiny
