import Scrutiny.Proofs.Schedule.FirstReply
import Scrutiny.Proofs.Schedule.Outcome

/-!
# The tally of reviews

A review finds its result in the cache or asks the model, once and not both.  So the hits and the
questions together are as many as the reviews that have come that far, in whatever order.  Where no reply
can be read back there are no hits, and each review asks.
-/

namespace Scrutiny

variable {μ α : Type} {session : Session μ}

/-- Whether a review in the phase has found its result, or has asked the model. -/
def JobPhase.isCounted : JobPhase α → Bool
  | .keeping _ _ | .atIndex _ | .indexing _ | .done _ => true
  | _ => false

theorem World.tally_of_ask {world later : World μ} {question : μ → Asked α μ}
    {answer : Except InferenceError α} (h : world.ask question = (answer, later)) :
  later.tally.calls = world.tally.calls + 1 ∧ later.tally.hits = world.tally.hits
  := by
  have hlater : later = (world.ask question).2 := by rw [h]
  rw [hlater]
  exact ⟨rfl, rfl⟩

/-- The number of hits and questions grows by one in the move that a review is counted in. -/
theorem Move.tally {world world' : World μ} {review : CachedReview μ α} {phase phase' : JobPhase α}
    (h : Move session world (.review review) phase world' phase') :
  world'.tally.calls + world'.tally.hits + phase.isCounted.toNat
    = world.tally.calls + world.tally.hits + phase'.isCounted.toNat
  := by
  cases h with
  | hit => apply Nat.add_assoc
  | usable hask | fatal hask =>
      obtain ⟨hcalls, hhits⟩ := World.tally_of_ask hask
      simp only [hcalls, hhits, JobPhase.isCounted, Bool.toNat_true, Bool.toNat_false]
      omega
  | useless hask | failure hask =>
      obtain ⟨hcalls, hhits⟩ := World.tally_of_ask hask
      rw [World.countFailure]
      dsimp only
      simp only [hcalls, hhits, JobPhase.isCounted, Bool.toNat_true, Bool.toNat_false]
      omega
  | _ => rfl

/-- A review that passes over the cache has no hit. -/
theorem Move.hits_eq {world world' : World μ} {review : CachedReview μ α} {phase phase' : JobPhase α}
    (hrefresh : review.refresh = true) (h : Move session world (.review review) phase world' phase') :
  world'.tally.hits = world.tally.hits
  := by
  cases h with
  | hit hfound =>
      rw [CachedReview.found?, hrefresh] at hfound
      cases hfound
  | usable hask | fatal hask | useless hask | failure hask => exact (World.tally_of_ask hask).2
  | _ => rfl

namespace Schedule

variable {state next : Schedule μ α} {start : World μ} {reviews : List (CachedReview μ α)} {i : Nat}

/-- The number of reviews that have found their results or have asked the model. -/
def counted (state : Schedule μ α) : Nat :=
  state.jobs.countP (·.2.isCounted)

/-- The tally goes with the number of reviews that were counted. -/
structure IsTallied (start : World μ) (reviews : List (CachedReview μ α)) (state : Schedule μ α) :
    Prop where
  jobs_eq : state.jobs.map Prod.fst = reviews.map Job.review
  sum_eq : state.world.tally.calls + state.world.tally.hits
    = start.tally.calls + start.tally.hits + state.counted
  hits_eq : (∀ review ∈ reviews, review.refresh = true) →
    state.world.tally.hits = start.tally.hits

theorem isTallied_ofJobs (session : Session μ) (start : World μ) (reviews : List (CachedReview μ α)) :
  (ofJobs session start (reviews.map .review)).IsTallied start reviews
  := by
  constructor
  · apply map_fst_ofJobs
  · have hnone : (ofJobs session start (reviews.map Job.review)).counted = 0 := by
      apply List.countP_eq_zero.mpr
      intro pair hpair
      obtain ⟨_, -, rfl⟩ := List.mem_map.mp hpair
      exact Bool.false_ne_true
    rw [hnone]
    rfl
  · intro _
    rfl

theorem isTallied_of_step? (h : state.IsTallied start reviews)
    (hstep : state.step? session i = some next) :
  next.IsTallied start reviews
  := by
  have hjobs := map_fst_of_step? hstep
  obtain ⟨job, phase, hjob, world, phase', hmove, -, rfl⟩ := step?_eq_some_iff.mp hstep
  obtain ⟨review, hreview, rfl⟩ := exists_review_of_getElem? h.jobs_eq hjob
  constructor
  · rw [hjobs, h.jobs_eq]
  · have hcount : (withPhase state.jobs i phase').countP (·.2.isCounted) + phase.isCounted.toNat
        = state.counted + phase'.isCounted.toNat := countP_withPhase hjob phase' JobPhase.isCounted
    have htally := hmove.tally
    have hsum := h.sum_eq
    change world.tally.calls + world.tally.hits
      = start.tally.calls + start.tally.hits + (withPhase state.jobs i phase').countP (·.2.isCounted)
    omega
  · intro hrefresh
    apply (hmove.hits_eq (hrefresh review hreview)).trans (h.hits_eq hrefresh)

theorem isTallied_of_run? {order : List Nat}
    (hrun : (ofJobs session start (reviews.map .review)).run? session order = some state) :
  state.IsTallied start reviews
  := by
  apply of_run? (P := (IsTallied start reviews ·)) _ (isTallied_ofJobs session start reviews) hrun
  intro i _ state next hstate hstep
  apply isTallied_of_step? hstate hstep

/-- When all reviews have come to their end, each of them has asked the model or found its result. -/
theorem IsTallied.sum_eq_of_isOver (h : state.IsTallied start reviews) (hover : state.IsOver) :
  state.world.tally.calls + state.world.tally.hits
    = start.tally.calls + start.tally.hits + reviews.length
  := by
  have hcounted : state.counted = reviews.length := by
    have hlength := congrArg List.length h.jobs_eq
    rw [List.length_map, List.length_map] at hlength
    rw [← hlength]
    apply List.countP_eq_length.mpr
    intro pair hpair
    have hdone := hover pair hpair
    cases hphase : pair.2 <;> rw [hphase] at hdone <;> first | rfl | cases hdone
  rw [← hcounted]
  apply h.sum_eq

/-- If reviews have results, each of them has asked the model or found its result. -/
theorem tally_of_outcome?_eq_ok {order : List Nat}
    (hrun : (ofJobs session start (reviews.map .review)).run? session order = some state)
    {found : List α} (houtcome : state.outcome? = some (.ok found)) :
  state.world.tally.calls + state.world.tally.hits
      = start.tally.calls + start.tally.hits + reviews.length
    ∧ ((∀ review ∈ reviews, review.refresh = true) →
      state.world.tally.hits = start.tally.hits)
  := by
  have htallied := isTallied_of_run? hrun
  use htallied.sum_eq_of_isOver (isOver_of_outcome?_eq_ok houtcome), htallied.hits_eq

/-! ### Replies that are not found again -/

/-- Nothing is found under the fingerprints of the reviews, and nobody has found anything so far. -/
structure FindsNothing (session : Session μ) (start : World μ) (reviews : List (CachedReview μ α))
    (state : Schedule μ α) : Prop where
  jobs_eq : state.jobs.map Prod.fst = reviews.map Job.review
  isStocked : state.IsStocked session
  value?_eq : ∀ review ∈ reviews,
    session.cache.value? state.world.files review.key.fingerprint = none
  hits_eq : state.world.tally.hits = start.tally.hits

/-- A reply that is nested too deeply to be read back changes nothing of what is found. -/
theorem findsNothing_of_step? (h : state.FindsNothing session start reviews)
    (hnow : session.clock.seconds < 2 ^ 64) (hregular : ∀ review ∈ reviews, review.IsRegular)
    (hdeep : ∀ review ∈ reviews, ∀ model result kept,
      (review.ask model).result = .ok (.usable result kept) → 126 < kept.depth)
    (hstep : state.step? session i = some next) :
  next.FindsNothing session start reviews
  := by
  have hjobs := map_fst_of_step? hstep
  have hstocked := isStocked_of_step? h.isStocked hnow hstep
  obtain ⟨job, phase, hjob, world, phase', hmove, -, rfl⟩ := step?_eq_some_iff.mp hstep
  obtain ⟨review, hreview, rfl⟩ := exists_review_of_getElem? h.jobs_eq hjob
  have heffect := h.isStocked.effect hnow hjob hmove
  have hself : session.cache.value? world.files review.key.fingerprint = none := by
    rw [heffect.value?_self]
    cases hmove with
    | kept =>
        obtain ⟨model, hask⟩ := h.isStocked.usable i review _ _ hjob
        have hdepth := hdeep review hreview model _ _ hask
        rw [valueAfter, Cache.storedValue?, if_neg (by omega)]
    | _ => apply h.value?_eq review hreview
  constructor
  · rw [hjobs, h.jobs_eq]
  · apply hstocked
  · intro other hother
    by_cases hkey : other.key.fingerprint = review.key.fingerprint
    · rw [hkey]
      apply hself
    · have hsame : session.cache.value? world.files other.key.fingerprint
          = session.cache.value? state.world.files other.key.fingerprint :=
        heffect.value?_ne _ (hregular other hother).isValid hkey
      apply hsame.trans (h.value?_eq other hother)
  · cases hmove with
    | hit hfound =>
        rw [CachedReview.found?_eq, h.value?_eq review hreview] at hfound
        split at hfound <;> cases hfound
    | usable hask | fatal hask => exact (World.tally_of_ask hask).2.trans h.hits_eq
    | useless hask | failure hask => exact (World.tally_of_ask hask).2.trans h.hits_eq
    | _ => apply h.hits_eq

/-- Reviews whose replies are all nested too deeply to be read back ask the model one by one, although they
use the cache and may have one fingerprint. -/
theorem tally_of_depth_gt {order : List Nat}
    (hroot : start.files.HasFolder session.cache.root) (hnow : session.clock.seconds < 2 ^ 64)
    (hregular : ∀ review ∈ reviews, review.IsRegular)
    (hvalue : ∀ review ∈ reviews,
      session.cache.value? start.files review.key.fingerprint = none)
    (hdeep : ∀ review ∈ reviews, ∀ model result kept,
      (review.ask model).result = .ok (.usable result kept) → 126 < kept.depth)
    (hrun : (ofJobs session start (reviews.map .review)).run? session order = some state)
    (hover : state.IsOver) :
  state.world.tally.calls = start.tally.calls + reviews.length
    ∧ state.world.tally.hits = start.tally.hits
  := by
  have hnothing : state.FindsNothing session start reviews := by
    apply of_run? (P := (FindsNothing session start reviews ·)) _ _ hrun
    · intro i _ state next hstate hstep
      apply findsNothing_of_step? hstate hnow hregular hdeep hstep
    · exact ⟨map_fst_ofJobs _ _ _, isStocked_ofReviews hroot hregular, hvalue, rfl⟩
  have hsum := (isTallied_of_run? hrun).sum_eq_of_isOver hover
  have hhits := hnothing.hits_eq
  use by omega, hhits

end Schedule

end Scrutiny
