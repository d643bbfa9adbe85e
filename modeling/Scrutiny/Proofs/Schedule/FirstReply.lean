import Scrutiny.Proofs.Schedule.Contents
import Scrutiny.Proofs.Schedule.Progress

/-!
# The first usable reply

Reviews of one fingerprint share the first usable reply: after it was stored none of them asks again.
-/

/-!
## Settled fingerprints

Once a usable value was written under a fingerprint, all reviews of that fingerprint find it, as long
as nothing is removed: none of them asks the model any more.
-/

namespace Scrutiny

variable {μ α : Type} {session : Session μ}

/-- Whether a review in the phase has found nothing, and has not yet written a result. -/
def JobPhase.isFetching : JobPhase α → Bool
  | .atPermit | .asking | .keeping _ _ => true
  | _ => false

theorem JobPhase.writerHolds?_of_isFetching {phase : JobPhase α} (h : phase.isFetching) :
  phase.writerHolds? = some true
  := by
  cases phase <;> first | rfl | cases h

theorem valueAfter_of_not_isFetching {value? : Option Json} {phase phase' : JobPhase α}
    (h : phase.isFetching = false) :
  valueAfter value? phase phase' = value?
  := by
  cases phase <;> first | rfl | cases h

namespace Schedule

variable {state next : Schedule μ α} {fingerprint : Fingerprint} {i : Nat}
  {review : CachedReview μ α} {result : α} {kept : Json}

/-- All reviews of a fingerprint find a result, and none is about to fetch one. -/
structure IsSettled (session : Session μ) (fingerprint : Fingerprint) (state : Schedule μ α) : Prop where
  isSome_found? : ∀ (i : Nat) (review : CachedReview μ α) (phase : JobPhase α),
    state.jobs[i]? = some (.review review, phase) → review.key.fingerprint = fingerprint →
    (review.found? session.cache state.world.files).isSome
  isFetching_eq : ∀ (i : Nat) (review : CachedReview μ α) (phase : JobPhase α),
    state.jobs[i]? = some (.review review, phase) → review.key.fingerprint = fingerprint →
    phase.isFetching = false

/-- The reviews of a settled fingerprint find the same value after a step of any review. -/
theorem IsSettled.value?_eq (h : state.IsSettled session fingerprint)
    (hstocked : state.IsStocked session) (hnow : session.clock.seconds < 2 ^ 64)
    (hvalid : fingerprint.IsValid) {phase phase' : JobPhase α} {world : World μ}
    (hjob : state.jobs[i]? = some (.review review, phase))
    (hmove : Move session state.world (.review review) phase world phase') :
  session.cache.value? world.files fingerprint = session.cache.value? state.world.files fingerprint
  := by
  have heffect := hstocked.effect hnow hjob hmove
  by_cases hkey : review.key.fingerprint = fingerprint
  · rw [← hkey, heffect.value?_self]
    apply valueAfter_of_not_isFetching (h.isFetching_eq i review phase hjob hkey)
  · apply heffect.value?_ne fingerprint hvalid (Ne.symm hkey)

/-- A fingerprint stays settled as long as nothing is removed. -/
theorem isSettled_of_step? (h : state.IsSettled session fingerprint)
    (hstocked : state.IsStocked session) (hnow : session.clock.seconds < 2 ^ 64)
    {phase : JobPhase α} (hjob : state.jobs[i]? = some (.review review, phase))
    (hstep : state.step? session i = some next) :
  next.IsSettled session fingerprint
  := by
  obtain ⟨world, phase', hmove, rfl⟩ := exists_move_of_step? hjob hstep
  have hfound {j : Nat} {other : CachedReview μ α} {later : JobPhase α}
      (hother : state.jobs[j]? = some (.review other, later))
      (hkey : other.key.fingerprint = fingerprint) :
      (other.found? session.cache world.files).isSome := by
    have hvalid := (hstocked.isRegular j other later hother).isValid
    rw [hkey] at hvalid
    have hsame : other.found? session.cache world.files
        = other.found? session.cache state.world.files := by
      apply CachedReview.found?_congr
      rw [hkey]
      apply h.value?_eq hstocked hnow hvalid hjob hmove
    rw [hsame]
    apply h.isSome_found? j other later hother hkey
  constructor
  · intro j other later hlater hkey
    rcases of_getElem?_withPhase hjob hlater with ⟨-, hreview, -⟩ | ⟨-, hlater⟩
    · obtain rfl := Job.review.inj hreview
      apply hfound hjob hkey
    · apply hfound hlater hkey
  · intro j other later hlater hkey
    rcases of_getElem?_withPhase hjob hlater with ⟨-, hreview, rfl⟩ | ⟨-, hlater⟩
    · obtain rfl := Job.review.inj hreview
      have hphase := h.isFetching_eq i other phase hjob hkey
      cases hmove with
      | miss hmiss =>
          have hsome := h.isSome_found? i other _ hjob hkey
          rw [hmiss] at hsome
          cases hsome
      | permit | usable => cases hphase
      | _ => rfl
    · apply h.isFetching_eq j other later hlater hkey

/-- A fingerprint is settled as soon as a value was written under it that all its reviews can read
back. -/
theorem isSettled_of_kept (hsound : state.Sound session) (hstocked : state.IsStocked session)
    (hnow : session.clock.seconds < 2 ^ 64)
    (hjob : state.jobs[i]? = some (.review review, .keeping result kept)) (hdepth : kept.depth ≤ 126)
    (hstep : state.step? session i = some next)
    (hkept : next.jobs[i]? = some (.review review, .atIndex (some result)))
    (hreads : ∀ (j : Nat) (other : CachedReview μ α) (phase : JobPhase α),
      state.jobs[j]? = some (.review other, phase) →
      other.key.fingerprint = review.key.fingerprint →
      other.refresh = false ∧ (other.readBack? kept.reread).isSome) :
  next.IsSettled session review.key.fingerprint
  := by
  obtain ⟨world, phase', hmove, rfl⟩ := exists_move_of_step? hjob hstep
  obtain rfl : .atIndex (some result) = phase' := by
    rcases of_getElem?_withPhase hjob hkept with ⟨-, -, hphase⟩ | ⟨hne, -⟩
    · apply hphase
    · cases hne rfl
  have hvalue := (hstocked.effect hnow hjob hmove).value?_self
  rw [valueAfter, Cache.storedValue?, if_pos hdepth] at hvalue
  have hfound {j : Nat} {other : CachedReview μ α} {later : JobPhase α}
      (hother : state.jobs[j]? = some (.review other, later))
      (hkey : other.key.fingerprint = review.key.fingerprint) :
      (other.found? session.cache world.files).isSome := by
    obtain ⟨hrefresh, hread⟩ := hreads j other later hother hkey
    rw [CachedReview.found?_eq, hrefresh, hkey, hvalue]
    apply hread
  constructor
  · intro j other later hlater hkey
    rcases of_getElem?_withPhase hjob hlater with ⟨-, hreview, -⟩ | ⟨-, hlater⟩
    · obtain rfl := Job.review.inj hreview
      apply hfound hjob hkey
    · apply hfound hlater hkey
  · intro j other later hlater hkey
    rcases of_getElem?_withPhase hjob hlater with ⟨-, -, rfl⟩ | ⟨hne, hlater⟩
    · rfl
    · -- The one that writes is the only one that holds the lock of the fingerprint.
      cases hfetching : later.isFetching with
      | false => rfl
      | true =>
          cases hne (hsound.eq_of_writerHolds? hlater hjob hkey
            (JobPhase.writerHolds?_of_isFetching hfetching) rfl)

end Schedule

end Scrutiny

/-!
## The first reply

Of reviews with one fingerprint that find nothing at first, one asks the model; if its reply is good,
all others find it.
-/

namespace Scrutiny

variable {μ α : Type} {session : Session μ}

/-- Whether a job in the phase has its result. -/
def JobPhase.hasArrived : JobPhase α → Bool
  | .atIndex _ | .indexing _ | .done _ => true
  | _ => false

theorem JobPhase.hasArrived_of_isDone {phase : JobPhase α} (h : phase.isDone) :
  phase.hasArrived
  := by
  cases phase <;> first | rfl | cases h

namespace Schedule

variable {world : World μ} {fingerprint : Fingerprint} {state next : Schedule μ α} {i : Nat}

/-- The number of jobs that have their results. -/
def arrived (state : Schedule μ α) : Nat :=
  state.jobs.countP (·.2.hasArrived)

theorem countP_withPhase {jobs : List (Job μ α × JobPhase α)} {job : Job μ α} {phase : JobPhase α}
    (hjob : jobs[i]? = some (job, phase)) (phase' : JobPhase α) (p : JobPhase α → Bool) :
  (withPhase jobs i phase').countP (p ·.2) + (p phase).toNat
    = jobs.countP (p ·.2) + (p phase').toNat
  := by
  induction jobs generalizing i with
  | nil => cases hjob
  | cons pair rest ih =>
      cases i with
      | zero =>
          obtain rfl := Option.some.inj hjob
          have hjobs : withPhase ((job, phase) :: rest) 0 phase' = (job, phase') :: rest := rfl
          rw [hjobs, List.countP_cons, List.countP_cons]
          cases p phase <;> cases p phase' <;> simp
      | succ i =>
          have := ih (i := i) hjob
          have hjobs : withPhase (pair :: rest) (i + 1) phase' = pair :: withPhase rest i phase' := rfl
          rw [hjobs, List.countP_cons, List.countP_cons]
          omega

theorem arrived_after {job : Job μ α} {phase : JobPhase α} (hjob : state.jobs[i]? = some (job, phase))
    (world : World μ) (phase' : JobPhase α) :
  (state.after i job phase world phase').arrived + phase.hasArrived.toNat
    = state.arrived + phase'.hasArrived.toNat
  := countP_withPhase hjob phase' JobPhase.hasArrived

/-- Reviews of one fingerprint that use the cache and find nothing in it, where a result can be kept,
and to each of which the model would give a good reply: one that all of them can read back. -/
structure IsFresh (session : Session μ) (world : World μ) (fingerprint : Fingerprint)
    (jobs : List (Job μ α)) : Prop where
  exists_review : ∀ job ∈ jobs, ∃ review, job = .review review ∧ review.IsRegular
    ∧ review.key.fingerprint = fingerprint ∧ review.refresh = false
    ∧ review.found? session.cache world.files = none
  canKeep : session.cache.CanKeep world.files fingerprint
  exists_usable : ∀ review, Job.review review ∈ jobs → ∃ result kept,
    (review.ask world.model).result = .ok (.usable result kept) ∧ kept.depth ≤ 126
      ∧ ∀ other, Job.review other ∈ jobs → (other.readBack? kept.reread).isSome

/-- How far the reviews have come. -/
inductive FirstReply (session : Session μ) (world : World μ) (fingerprint : Fingerprint)
    (state : Schedule μ α) : Prop where
  /-- Nobody has asked the model. -/
  | unasked
    (hvalue : session.cache.value? state.world.files fingerprint
      = session.cache.value? world.files fingerprint)
    (hkeep : session.cache.CanKeep state.world.files fingerprint)
    (hmodel : state.world.model = world.model) (hcalls : state.world.tally.calls = world.tally.calls)
    (hhits : state.world.tally.hits = world.tally.hits)
    (hphase : ∀ pair ∈ state.jobs, pair.2.hasArrived = false ∧ ∀ result kept, pair.2 ≠ .keeping result kept)
  /-- One review has asked it, and is about to write the reply. -/
  | asked (first : Nat) (review : CachedReview μ α) (result : α) (kept : Json)
    (hfirst : state.jobs[first]? = some (.review review, .keeping result kept))
    (hdepth : kept.depth ≤ 126)
    (hreads : ∀ (j : Nat) (other : CachedReview μ α) (phase : JobPhase α),
      state.jobs[j]? = some (.review other, phase) → (other.readBack? kept.reread).isSome)
    (hkeep : session.cache.CanKeep state.world.files fingerprint)
    (hcalls : state.world.tally.calls = world.tally.calls + 1)
    (hhits : state.world.tally.hits = world.tally.hits)
    (hphase : ∀ pair ∈ state.jobs, pair.2.hasArrived = false)
  /-- The reply is written; all others find it. -/
  | settled (hsettled : state.IsSettled session fingerprint)
    (hcalls : state.world.tally.calls = world.tally.calls + 1)
    (hhits : world.tally.hits + state.arrived = state.world.tally.hits + 1)

theorem firstReply_ofJobs {jobs : List (Job μ α)} (h : IsFresh session world fingerprint jobs) :
  (ofJobs session world jobs).FirstReply session world fingerprint
  := by
  refine FirstReply.unasked rfl h.canKeep rfl rfl rfl ?_
  intro pair hpair
  obtain ⟨job, -, rfl⟩ := List.mem_map.mp hpair
  use rfl
  intro result kept heq
  cases heq

/-! ### What a step does -/

section

variable (hfresh : IsFresh session world fingerprint (state.jobs.map Prod.fst))

include hfresh

theorem IsFresh.of_getElem? {job : Job μ α} {phase : JobPhase α}
    (hjob : state.jobs[i]? = some (job, phase)) :
  ∃ review, job = .review review ∧ review.IsRegular ∧ review.key.fingerprint = fingerprint
    ∧ review.refresh = false ∧ review.found? session.cache world.files = none
  := hfresh.exists_review job (List.mem_map_of_mem (List.mem_of_getElem? hjob))

/-- The first review to ask the model gets a good reply. -/
theorem IsFresh.of_ask {review : CachedReview μ α} {phase : JobPhase α}
    (hjob : state.jobs[i]? = some (.review review, phase)) (hmodel : state.world.model = world.model)
    {answer : Except InferenceError (Judgement α)} {later : World μ}
    (hask : state.world.ask review.ask = (answer, later)) :
  later.files = state.world.files ∧ later.tally.calls = state.world.tally.calls + 1
    ∧ later.tally.hits = state.world.tally.hits
    ∧ ∃ result kept, answer = .ok (.usable result kept) ∧ kept.depth ≤ 126
      ∧ ∀ (j : Nat) (other : CachedReview μ α) (phase : JobPhase α),
        state.jobs[j]? = some (.review other, phase) → (other.readBack? kept.reread).isSome
  := by
  obtain ⟨hanswer, rfl⟩ := Prod.mk.inj hask
  obtain ⟨result, kept, hresult, hdepth, hreads⟩ :=
    hfresh.exists_usable review (List.mem_map_of_mem (List.mem_of_getElem? hjob))
  use rfl, rfl, rfl, result, kept
  constructor
  · rw [← hanswer, hmodel, hresult]
  · use hdepth
    intro j other phase hother
    apply hreads other (List.mem_map_of_mem (List.mem_of_getElem? hother))

/-- As long as nobody has asked the model, nothing is found. -/
theorem firstReply_of_unasked
    (hvalue : session.cache.value? state.world.files fingerprint
      = session.cache.value? world.files fingerprint)
    (hkeep : session.cache.CanKeep state.world.files fingerprint)
    (hmodel : state.world.model = world.model) (hcalls : state.world.tally.calls = world.tally.calls)
    (hhits : state.world.tally.hits = world.tally.hits)
    (hphase : ∀ pair ∈ state.jobs,
      pair.2.hasArrived = false ∧ ∀ result kept, pair.2 ≠ .keeping result kept)
    (hstep : state.step? session i = some next) :
  next.FirstReply session world fingerprint
  := by
  obtain ⟨job, phase, hjob, world', phase', hmove, -, rfl⟩ := step?_eq_some_iff.mp hstep
  obtain ⟨review, rfl, -, hkey, -, hfound⟩ := hfresh.of_getElem? hjob
  obtain ⟨harrived, hkeeping⟩ := hphase _ (List.mem_of_getElem? hjob)
  have hothers (h : phase'.hasArrived = false ∧ ∀ result kept, phase' ≠ .keeping result kept) :
      ∀ pair ∈ withPhase state.jobs i phase',
        pair.2.hasArrived = false ∧ ∀ result kept, pair.2 ≠ .keeping result kept := by
    rintro ⟨other, later⟩ hpair
    obtain ⟨j, hlater⟩ := List.getElem?_of_mem hpair
    rcases of_getElem?_withPhase hjob hlater with ⟨-, -, rfl⟩ | ⟨-, hlater⟩
    · apply h
    · apply hphase _ (List.mem_of_getElem? hlater)
  cases hmove with
  | ask | take | permit | miss =>
      refine FirstReply.unasked hvalue hkeep hmodel hcalls hhits (hothers ?_)
      use rfl
      intro result kept heq
      cases heq
  | hit hhit =>
      have hsame : review.found? session.cache state.world.files
          = review.found? session.cache world.files := by
        apply CachedReview.found?_congr
        rw [hkey, hvalue]
      rw [hsame, hfound] at hhit
      cases hhit
  | usable hask =>
      obtain ⟨hfiles, hcalls', hhits', result, kept, hanswer, hdepth, hreads⟩ :=
        hfresh.of_ask hjob hmodel hask
      obtain ⟨rfl, rfl⟩ := Judgement.usable.inj (Except.ok.inj hanswer)
      refine FirstReply.asked i review _ _ (by
        change (withPhase state.jobs i _)[i]? = _
        rw [getElem?_withPhase hjob, if_pos rfl]) hdepth ?_ ?_ ?_ ?_ ?_
      · intro j other later hlater
        rcases of_getElem?_withPhase hjob hlater with ⟨-, hreview, -⟩ | ⟨-, hlater⟩
        · obtain rfl := Job.review.inj hreview
          apply hreads i other _ hjob
        · apply hreads j other later hlater
      · change session.cache.CanKeep world'.files fingerprint
        rwa [hfiles]
      · rw [← hcalls]
        exact hcalls'
      · rw [← hhits]
        exact hhits'
      · rintro ⟨other, later⟩ hpair
        obtain ⟨j, hlater⟩ := List.getElem?_of_mem hpair
        rcases of_getElem?_withPhase hjob hlater with ⟨-, -, rfl⟩ | ⟨-, hlater⟩
        · rfl
        · apply (hphase _ (List.mem_of_getElem? hlater)).1
  | useless hask | failure hask | fatal hask =>
      obtain ⟨-, -, -, result, kept, hanswer, -⟩ := hfresh.of_ask hjob hmodel hask
      cases hanswer
  | kept | notKept => cases hkeeping _ _ rfl
  | takeIndex | listed => cases harrived

/-- The one that has asked the model writes the reply, while all others wait. -/
theorem firstReply_of_asked (hsound : state.Sound session) (hstocked : state.IsStocked session)
    (hnow : session.clock.seconds < 2 ^ 64) {first : Nat} {review : CachedReview μ α} {result : α}
    {kept : Json} (hfirst : state.jobs[first]? = some (.review review, .keeping result kept))
    (hdepth : kept.depth ≤ 126)
    (hreads : ∀ (j : Nat) (other : CachedReview μ α) (phase : JobPhase α),
      state.jobs[j]? = some (.review other, phase) → (other.readBack? kept.reread).isSome)
    (hkeep : session.cache.CanKeep state.world.files fingerprint)
    (hcalls : state.world.tally.calls = world.tally.calls + 1)
    (hhits : state.world.tally.hits = world.tally.hits)
    (hphase : ∀ pair ∈ state.jobs, pair.2.hasArrived = false)
    (hstep : state.step? session i = some next) :
  next.FirstReply session world fingerprint
  := by
  have hnext := hstep
  obtain ⟨job, phase, hjob, world', phase', hmove, -, rfl⟩ := step?_eq_some_iff.mp hstep
  obtain ⟨other, rfl, hregular, hkey, -, -⟩ := hfresh.of_getElem? hjob
  obtain ⟨_, hreview, hregular', hkey', -, -⟩ := hfresh.of_getElem? hfirst
  obtain rfl := Job.review.inj hreview
  have hcount := arrived_after hjob world' phase'
  by_cases heq : i = first
  · subst heq
    obtain ⟨hreview, rfl⟩ := Prod.mk.inj (Option.some.inj (hjob.symm.trans hfirst))
    obtain rfl := Job.review.inj hreview
    cases hmove with
    | kept hwrite =>
        refine FirstReply.settled ?_ hcalls ?_
        · rw [← hkey]
          apply isSettled_of_kept hsound hstocked hnow hfirst hdepth hnext
          · change (withPhase state.jobs i _)[i]? = _
            rw [getElem?_withPhase hjob, if_pos rfl]
          · intro j later phase hlater _
            obtain ⟨_, hreview, -, -, hrefresh, -⟩ := hfresh.of_getElem? hlater
            obtain rfl := Job.review.inj hreview
            use hrefresh
            apply hreads j later phase hlater
        · have hnone : state.arrived = 0 := by
            apply List.countP_eq_zero.mpr
            intro pair hpair
            rw [hphase pair hpair]
            exact Bool.false_ne_true
          change _ + 0 = _ + 1 at hcount
          change _ = state.world.tally.hits + 1
          omega
    | notKept hwrite =>
        rw [← hkey] at hkeep
        obtain ⟨files, hfiles⟩ := (Cache.writeJson_entryPath_isOk_iff hstocked.hasFolder
          hregular.isValid (CacheEntry.ofKey other.key kept session.clock.seconds).toJson).mpr hkeep
        rw [hfiles] at hwrite
        cases congrArg Prod.fst hwrite
  · have hothers (h : phase'.hasArrived = false) :
        ∀ pair ∈ withPhase state.jobs i phase', pair.2.hasArrived = false := by
      rintro ⟨later, latest⟩ hpair
      obtain ⟨j, hlater⟩ := List.getElem?_of_mem hpair
      rcases of_getElem?_withPhase hjob hlater with ⟨-, -, rfl⟩ | ⟨-, hlater⟩
      · apply h
      · apply hphase _ (List.mem_of_getElem? hlater)
    have hsame : (withPhase state.jobs i phase')[first]?
        = some (.review review, .keeping result kept) := by
      rw [getElem?_withPhase hjob, if_neg (Ne.symm heq), hfirst]
    have hreads' (j : Nat) (later : CachedReview μ α) (latest : JobPhase α)
        (hlater : (withPhase state.jobs i phase')[j]? = some (.review later, latest)) :
        (later.readBack? kept.reread).isSome := by
      rcases of_getElem?_withPhase hjob hlater with ⟨-, hreview, -⟩ | ⟨-, hlater⟩
      · obtain rfl := Job.review.inj hreview
        apply hreads i later _ hjob
      · apply hreads j later latest hlater
    have hexclusive (h : phase.writerHolds? = some true) : False :=
      heq (hsound.eq_of_writerHolds? hjob hfirst (hkey.trans hkey'.symm) h rfl)
    cases hmove with
    | ask | take =>
        exact FirstReply.asked first review result kept hsame hdepth hreads' hkeep hcalls hhits
          (hothers rfl)
    | _ => cases hexclusive rfl

/-- All others find the reply. -/
theorem firstReply_of_settled (hstocked : state.IsStocked session)
    (hnow : session.clock.seconds < 2 ^ 64) (hsettled : state.IsSettled session fingerprint)
    (hcalls : state.world.tally.calls = world.tally.calls + 1)
    (hhits : world.tally.hits + state.arrived = state.world.tally.hits + 1)
    (hstep : state.step? session i = some next) :
  next.FirstReply session world fingerprint
  := by
  have hnext := hstep
  obtain ⟨job, phase, hjob, world', phase', hmove, -, rfl⟩ := step?_eq_some_iff.mp hstep
  obtain ⟨review, rfl, -, hkey, -, -⟩ := hfresh.of_getElem? hjob
  have hsettled' := isSettled_of_step? hsettled hstocked hnow hjob hnext
  have hfetching := hsettled.isFetching_eq i review phase hjob hkey
  have hcount := arrived_after hjob world' phase'
  cases hmove with
  | hit hfound =>
      refine FirstReply.settled hsettled' hcalls ?_
      change _ + 0 = _ + 1 at hcount
      change _ = state.world.tally.hits + 1 + 1
      omega
  | ask | take =>
      refine FirstReply.settled hsettled' hcalls ?_
      change _ + 0 = _ + 0 at hcount
      change _ = state.world.tally.hits + 1
      omega
  | takeIndex | listed =>
      refine FirstReply.settled hsettled' hcalls ?_
      change _ + 1 = _ + 1 at hcount
      change _ = state.world.tally.hits + 1
      omega
  | miss hmiss =>
      have hsome := hsettled.isSome_found? i review _ hjob hkey
      rw [hmiss] at hsome
      cases hsome
  | _ => cases hfetching

end

/-! ### What a run does -/

/-- Reviews of one fingerprint that find nothing at first, and of which the first gets a good reply,
ask the model once: all others find that reply. -/
theorem tally_of_isFresh {jobs : List (Job μ α)} (hfresh : IsFresh session world fingerprint jobs)
    (hjobs : jobs ≠ []) (hroot : world.files.HasFolder session.cache.root)
    (hnow : session.clock.seconds < 2 ^ 64) {order : List Nat}
    (hrun : (ofJobs session world jobs).run? session order = some state) (hover : state.IsOver) :
  state.world.tally.calls = world.tally.calls + 1
    ∧ state.world.tally.hits + 1 = world.tally.hits + jobs.length
  := by
  have hinvariant : state.Sound session ∧ state.IsStocked session
      ∧ state.jobs.map Prod.fst = jobs ∧ state.FirstReply session world fingerprint := by
    apply of_run? (P := fun state => state.Sound session ∧ state.IsStocked session
      ∧ state.jobs.map Prod.fst = jobs ∧ state.FirstReply session world fingerprint) _ _ hrun
    · rintro i - state next ⟨hsound, hstocked, rfl, hreply⟩ hstep
      use sound_of_step? hsound hstep, isStocked_of_step? hstocked hnow hstep, map_fst_of_step? hstep
      cases hreply with
      | unasked hvalue hkeep hmodel hcalls hhits hphase =>
          apply firstReply_of_unasked hfresh hvalue hkeep hmodel hcalls hhits hphase hstep
      | asked first review result kept hfirst hdepth hreads hkeep hcalls hhits hphase =>
          apply firstReply_of_asked hfresh hsound hstocked hnow hfirst hdepth hreads hkeep hcalls hhits
            hphase hstep
      | settled hsettled hcalls hhits =>
          apply firstReply_of_settled hfresh hstocked hnow hsettled hcalls hhits hstep
    · use sound_ofJobs session world jobs
      constructor
      · apply isStocked_ofJobs hroot
        intro review hreview
        obtain ⟨_, heq, hregular, -⟩ := hfresh.exists_review _ hreview
        obtain rfl := Job.review.inj heq
        apply hregular
      · use (by rw [ofJobs, List.map_map]; exact List.map_id jobs), firstReply_ofJobs hfresh
  obtain ⟨-, -, hlist, hreply⟩ := hinvariant
  have hlength : state.jobs.length = jobs.length := by rw [← hlist, List.length_map]
  have hdone {pair : Job μ α × JobPhase α} (hpair : pair ∈ state.jobs) : pair.2.hasArrived :=
    JobPhase.hasArrived_of_isDone (hover pair hpair)
  cases hreply with
  | unasked _ _ _ _ _ hphase =>
      obtain ⟨pair, hpair⟩ := List.exists_mem_of_ne_nil state.jobs (by
        rintro hnil
        rw [hnil] at hlength
        apply hjobs (List.length_eq_zero_iff.mp hlength.symm))
      have hfalse := (hphase pair hpair).1
      rw [hdone hpair] at hfalse
      cases hfalse
  | asked first review result kept hfirst _ _ _ _ _ hphase =>
      have hfalse := hover _ (List.mem_of_getElem? hfirst)
      cases hfalse
  | settled _ hcalls hhits =>
      use hcalls
      rw [arrived, List.countP_eq_length.mpr fun pair hpair => hdone hpair, hlength] at hhits
      exact hhits.symm

end Schedule

end Scrutiny
