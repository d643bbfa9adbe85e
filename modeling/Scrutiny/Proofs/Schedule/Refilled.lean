import Scrutiny.Proofs.Schedule.Repeated

/-!
# Reviews that fill the cache

Reviews that keep their replies fill the cache, whether they ask it or pass over it.  A result that can
be read back stays one: it is replaced only by another one that can be read back, too.
-/

namespace Scrutiny

variable {μ α : Type} {session : Session μ}

namespace CachedReview

variable {review : CachedReview μ α} {cache : Cache} {tree next : FileTree}

/-- The value under the fingerprint of the review can be read back. -/
def IsKept (review : CachedReview μ α) (cache : Cache) (tree : FileTree) : Prop :=
  ((cache.value? tree review.key.fingerprint).bind review.readBack?).isSome

/-- What a review has done for the cache in a phase: once it has its result, a result is kept, unless
the review has failed. -/
def HasFilled (review : CachedReview μ α) (isKept : Prop) : JobPhase α → Prop
  | .atIndex result | .indexing result => ∃ value, result = some value ∧ isKept
  | .done (.ok result) => ∃ value, result = some value
    ∧ (isKept ∨ ∃ reason, value = review.failed reason)
  | _ => True

theorem HasFilled.mono {isKept isKept' : Prop} {phase : JobPhase α} (h : review.HasFilled isKept phase)
    (himp : isKept → isKept') :
  review.HasFilled isKept' phase
  := by
  cases phase with
  | atIndex | indexing =>
      obtain ⟨value, hvalue, hkept⟩ := h
      exact ⟨value, hvalue, himp hkept⟩
  | done result =>
      cases result with
      | error e => trivial
      | ok result =>
          obtain ⟨value, hvalue, hkept⟩ := h
          exact ⟨value, hvalue, hkept.imp_left himp⟩
  | _ => trivial

theorem isKept_of_found? {value : α} (h : review.found? cache tree = some value) :
  review.IsKept cache tree
  := by
  rw [found?_eq] at h
  split at h
  · cases h
  · rw [IsKept, h, Option.isSome_some]

theorem IsKept.of_value? {kept : Json} (hvalue : cache.value? tree review.key.fingerprint = some kept)
    (hread : (review.readBack? kept).isSome) :
  review.IsKept cache tree
  := by
  rwa [IsKept, hvalue]

theorem IsKept.congr (h : review.IsKept cache tree)
    (hvalue : cache.value? next review.key.fingerprint = cache.value? tree review.key.fingerprint) :
  review.IsKept cache next
  := by
  rwa [IsKept, hvalue]

end CachedReview

/-- A review that writes its reply puts a result under its fingerprint that can be read back; any
other move leaves the value as it is. -/
theorem CachedReview.IsFaithful.value?_of_move {review : CachedReview μ α} (h : review.IsFaithful)
    {world world' : World μ} {phase phase' : JobPhase α}
    (husable : ∀ result kept, phase = .keeping result kept →
      ∃ model, (review.ask model).result = .ok (.usable result kept))
    (hkept : ∀ result kept, phase = .keeping result kept →
      kept.depth ≤ 126 ∧ phase' = .atIndex (some result))
    (heffect : review.Effect session.cache phase phase' world.files world'.files)
    (hmove : Move session world (.review review) phase world' phase') :
  (∀ result kept, phase ≠ .keeping result kept)
      ∧ session.cache.value? world'.files review.key.fingerprint
        = session.cache.value? world.files review.key.fingerprint
    ∨ ∃ kept, (review.readBack? kept).isSome
      ∧ session.cache.value? world'.files review.key.fingerprint = some kept
  := by
  have hvalue := heffect.value?_self
  cases hmove with
  | @kept _ result kept files hwrite =>
      right
      obtain ⟨hdepth, -⟩ := hkept result kept rfl
      obtain ⟨model, hmodel⟩ := husable result kept rfl
      use kept.reread
      rw [h.readBack?_eq model result kept hmodel, Option.isSome_some]
      use rfl
      rw [hvalue, valueAfter, Cache.storedValue?, if_pos hdepth]
  | @notKept _ result kept files e hwrite => cases (hkept result kept rfl).2
  | _ =>
      left
      refine ⟨?_, hvalue⟩
      intro result kept hphase
      cases hphase

/-- A review that has something to keep has filled the cache once it was kept. -/
theorem CachedReview.hasFilled_of_move {review : CachedReview μ α} {world world' : World μ}
    {phase phase' : JobPhase α}
    (hbefore : review.HasFilled (review.IsKept session.cache world'.files) phase)
    (hkept : ∀ result kept, phase = .keeping result kept →
      phase' = .atIndex (some result) ∧ review.IsKept session.cache world'.files)
    (hmove : Move session world (.review review) phase world' phase') :
  review.HasFilled (review.IsKept session.cache world'.files) phase'
  := by
  cases hmove with
  | hit hfound => exact ⟨_, rfl, .inl (isKept_of_found? hfound)⟩
  | useless | failure => exact ⟨_, rfl, .inr ⟨_, rfl⟩⟩
  | @kept _ result kept files hwrite => exact ⟨result, rfl, (hkept result kept rfl).2⟩
  | @notKept _ result kept files e hwrite => cases (hkept result kept rfl).1
  | takeIndex => exact hbefore
  | listed =>
      obtain ⟨value, hvalue, hfilled⟩ := hbefore
      exact ⟨value, hvalue, .inl hfilled⟩
  | _ => trivial

namespace Schedule

variable {reviews : List (CachedReview μ α)} {state next : Schedule μ α} {i : Nat}

/-- Reviews where those of one fingerprint can read the same values. -/
structure AreFaithful (reviews : List (CachedReview μ α)) : Prop where
  isFaithful : ∀ review ∈ reviews, review.IsFaithful
  isSome_eq : ∀ review ∈ reviews, ∀ other ∈ reviews,
    review.key.fingerprint = other.key.fingerprint → ∀ kept,
    (review.readBack? kept).isSome = (other.readBack? kept).isSome

/-- Each review has filled the cache as far as it has come. -/
structure HasFilled (session : Session μ) (reviews : List (CachedReview μ α)) (state : Schedule μ α) :
    Prop where
  jobs_eq : state.jobs.map Prod.fst = reviews.map Job.review
  hasFilled : ∀ (i : Nat) (review : CachedReview μ α) (phase : JobPhase α),
    state.jobs[i]? = some (.review review, phase) →
    review.HasFilled (review.IsKept session.cache state.world.files) phase

theorem hasFilled_ofJobs (session : Session μ) (world : World μ) (reviews : List (CachedReview μ α)) :
  (ofJobs session world (reviews.map .review)).HasFilled session reviews
  := by
  constructor
  · apply map_fst_ofJobs
  · intro i review phase hjob
    obtain rfl := phase_eq_idle_of_ofJobs hjob
    trivial

/-- What could be read back by some review still can after a move of any review. -/
theorem AreFaithful.isKept_of_effect (h : AreFaithful reviews) {review other : CachedReview μ α}
    (hreview : review ∈ reviews) (hother : other ∈ reviews) {phase phase' : JobPhase α}
    {tree later : FileTree} (heffect : review.Effect session.cache phase phase' tree later)
    (hvalue : (∀ result kept, phase ≠ .keeping result kept)
        ∧ session.cache.value? later review.key.fingerprint
          = session.cache.value? tree review.key.fingerprint
      ∨ ∃ kept, (review.readBack? kept).isSome
        ∧ session.cache.value? later review.key.fingerprint = some kept)
    (hbefore : other.IsKept session.cache tree) :
  other.IsKept session.cache later
  := by
  by_cases hkey : other.key.fingerprint = review.key.fingerprint
  · rcases hvalue with ⟨-, hsame⟩ | ⟨kept, hread, hstored⟩
    · apply hbefore.congr
      rw [hkey, hsame]
    · rw [← hkey] at hstored
      rw [← h.isSome_eq other hother review hreview hkey] at hread
      exact .of_value? hstored hread
  · apply hbefore.congr
    apply heffect.value?_ne _ (h.isFaithful other hother).isValid hkey

theorem hasFilled_of_step? (h : state.HasFilled session reviews) (hfaithful : AreFaithful reviews)
    (hstocked : state.IsStocked session) (hnow : session.clock.seconds < 2 ^ 64)
    (hstep : state.step? session i = some next)
    (hkept : ∀ review result kept, state.jobs[i]? = some (.review review, .keeping result kept) →
      kept.depth ≤ 126 ∧ next.jobs[i]? = some (.review review, .atIndex (some result))) :
  next.HasFilled session reviews
  := by
  have hjobs := map_fst_of_step? hstep
  obtain ⟨job, phase, hjob, world, phase', hmove, -, rfl⟩ := step?_eq_some_iff.mp hstep
  obtain ⟨review, hreview, rfl⟩ := exists_review_of_getElem? h.jobs_eq hjob
  have heffect := hstocked.effect hnow hjob hmove
  have hself : (withPhase state.jobs i phase')[i]? = some (.review review, phase') := by
    rw [getElem?_withPhase hjob, if_pos rfl]
  have hphase (result : α) (kept : Json) (heq : phase = .keeping result kept) :
      kept.depth ≤ 126 ∧ phase' = .atIndex (some result) := by
    subst heq
    obtain ⟨hdepth, hnext⟩ := hkept review result kept hjob
    use hdepth
    exact (Prod.mk.inj (Option.some.inj (hself.symm.trans hnext))).2
  have hvalue := (hfaithful.isFaithful review hreview).value?_of_move (by
    rintro result kept rfl
    apply hstocked.usable i review result kept hjob) hphase heffect hmove
  have hmono (other : CachedReview μ α) (hother : other ∈ reviews) :=
    hfaithful.isKept_of_effect hreview hother heffect hvalue
  constructor
  · rw [hjobs, h.jobs_eq]
  · intro j other later hlater
    rcases of_getElem?_withPhase hjob hlater with ⟨-, heq, rfl⟩ | ⟨-, hlater⟩
    · obtain rfl := Job.review.inj heq
      apply CachedReview.hasFilled_of_move _ _ hmove
      · apply (h.hasFilled i other phase hjob).mono (hmono other hreview)
      · intro result kept hkeeping
        use (hphase result kept hkeeping).2
        rcases hvalue with ⟨hnot, -⟩ | ⟨kept', hread, hstored⟩
        · cases hnot result kept hkeeping
        · exact .of_value? hstored hread
    · apply (h.hasFilled j other later hlater).mono
      apply hmono other (mem_of_getElem? h.jobs_eq hlater)

/-- Reviews that have kept their replies have filled the cache, but for those that failed. -/
theorem forall₂_isKept_of_keepsReplies {world : World μ} (hfaithful : AreFaithful reviews)
    (hroot : world.files.HasFolder session.cache.root) (hnow : session.clock.seconds < 2 ^ 64)
    {order : List Nat}
    (hkeeps : (ofJobs session world (reviews.map .review)).KeepsReplies session order)
    (hrun : (ofJobs session world (reviews.map .review)).run? session order = some state)
    {found : List α} (houtcome : state.outcome? = some (.ok found)) :
  List.Forall₂ (fun review value => review.IsKept session.cache state.world.files
    ∨ ∃ reason, value = review.failed reason) reviews found
  := by
  have hinvariant : state.HasFilled session reviews ∧ state.IsStocked session := by
    apply of_run?_of_keepsReplies (P := fun state => state.HasFilled session reviews
      ∧ state.IsStocked session) _ hkeeps _ hrun
    · rintro i state next ⟨hfilled, hstocked⟩ hstep hkept
      exact ⟨hasFilled_of_step? hfilled hfaithful hstocked hnow hstep hkept,
        isStocked_of_step? hstocked hnow hstep⟩
    · use hasFilled_ofJobs session world reviews
      apply isStocked_ofReviews hroot
      intro _ hreview
      apply (hfaithful.isFaithful _ hreview).toIsRegular
  obtain ⟨hfilled, -⟩ := hinvariant
  have hsound := sound_of_run? (sound_ofJobs session world _) hrun
  apply forall₂_of_outcome?_eq_ok hsound hfilled.jobs_eq _ houtcome
  intro i review result hjob
  exact hfilled.hasFilled i review _ hjob

end Schedule

end Scrutiny
