import Scrutiny.Proofs.Review.Actions
import Scrutiny.Proofs.Schedule.Contents
import Scrutiny.Proofs.Schedule.Outcome

/-!
# Reviews at the same time

What a review gives that is carried out alone, and why it gives the same beside others.
-/

/-!
## Reviews that are carried out alone

What a review gives that is carried out alone, and which value it leaves under its fingerprint.
-/

namespace Scrutiny

variable {μ α : Type} {session : Session μ}

/-- What is found after a store. -/
theorem Cache.value?_of_store {cache : Cache} {tree : FileTree} (hroot : tree.HasFolder cache.root)
    {key : CacheKey} (hkey : key.fingerprint.IsValid) {kept : Json} (hnormal : kept.IsNormal)
    (hfits : kept.Fits) {now : Nat} (hnow : now < 2 ^ 64) :
  (cache.CanKeep tree key.fingerprint →
      cache.value? (cache.store key kept now tree).2 key.fingerprint = storedValue? kept)
    ∧ (¬ cache.CanKeep tree key.fingerprint →
      cache.value? (cache.store key kept now tree).2 key.fingerprint
        = cache.value? tree key.fingerprint)
  := by
  have hiff := writeJson_entryPath_isOk_iff hroot hkey (CacheEntry.ofKey key kept now).toJson
  rcases hwrite : FileAction.writeJson (cache.entryPath key.fingerprint)
      (CacheEntry.ofKey key kept now).toJson tree with ⟨e | ⟨⟩, files⟩
  · have hvalue := value?_of_writeJson hroot hkey hnormal hfits hnow hwrite
    have hstore : cache.store key kept now tree = (.error e, files) :=
      FileAction.bind_of_error _ hwrite
    rw [hstore]
    constructor
    · intro hcan
      obtain ⟨_, hok⟩ := hiff.mpr hcan
      rw [hok] at hwrite
      cases congrArg Prod.fst hwrite
    · intro _
      apply hvalue
  · have hvalue := value?_of_writeJson hroot hkey hnormal hfits hnow hwrite
    obtain ⟨hroot', -⟩ := of_writeJson_entryPath hroot hkey hwrite
    rcases hadd : cache.addToIndex key.indexId key.fingerprint files with ⟨listing, files'⟩
    obtain ⟨-, -, hlookup⟩ := of_addToIndex hroot' hadd
    rw [snd_store_of_writeJson_eq_ok hwrite, hadd]
    constructor
    · intro _
      rw [value?, hlookup _ hkey]
      apply hvalue
    · intro hcannot
      cases hcannot (hiff.mp ⟨files, hwrite⟩)

namespace CachedReview

/-- The result of the review if it is carried out alone. -/
def resultAlone (review : CachedReview μ α) (session : Session μ) (world : World μ) :
    Except ReviewError α :=
  (session.perform review world).1

/-- The value under the fingerprint of the review after it was carried out alone. -/
def valueAlone (review : CachedReview μ α) (session : Session μ) (world : World μ) : Option Json :=
  session.cache.value? (session.perform review world).2.files review.key.fingerprint

section

variable {review : CachedReview μ α} {world : World μ}

theorem alone_of_found {result : α} (h : review.found? session.cache world.files = some result) :
  review.resultAlone session world = .ok result
    ∧ review.valueAlone session world = session.cache.value? world.files review.key.fingerprint
  := by
  rw [resultAlone, valueAlone, Session.perform_of_found h]
  exact ⟨rfl, rfl⟩

variable (hnone : review.found? session.cache world.files = none)

include hnone

theorem alone_of_useless {reason : String}
    (h : (review.ask world.model).result = .ok (.useless reason)) :
  review.resultAlone session world = .ok (review.failed reason)
    ∧ review.valueAlone session world = session.cache.value? world.files review.key.fingerprint
  := by
  have hask : world.ask review.ask = (.ok (.useless reason), (world.ask review.ask).2) :=
    Prod.ext h rfl
  rw [resultAlone, valueAlone, Session.perform_of_not_found hnone, Session.askAndKeep_of_useless hask]
  exact ⟨rfl, rfl⟩

theorem alone_of_failure {e : InferenceError} (h : (review.ask world.model).result = .error e)
    (hfatal : e.isFatal = false) :
  review.resultAlone session world = .ok (review.failed e.message)
    ∧ review.valueAlone session world = session.cache.value? world.files review.key.fingerprint
  := by
  have hask : world.ask review.ask = (.error e, (world.ask review.ask).2) := Prod.ext h rfl
  rw [resultAlone, valueAlone, Session.perform_of_not_found hnone,
    Session.askAndKeep_of_failure hask hfatal]
  exact ⟨rfl, rfl⟩

theorem alone_of_fatal {e : InferenceError} (h : (review.ask world.model).result = .error e)
    (hfatal : e.isFatal) :
  review.resultAlone session world = .error (.inference e)
    ∧ review.valueAlone session world = session.cache.value? world.files review.key.fingerprint
  := by
  have hask : world.ask review.ask = (.error e, (world.ask review.ask).2) := Prod.ext h rfl
  rw [resultAlone, valueAlone, Session.perform_of_not_found hnone,
    Session.askAndKeep_of_fatal hask hfatal]
  exact ⟨rfl, rfl⟩

theorem alone_of_usable (hregular : review.IsRegular)
    (hroot : world.files.HasFolder session.cache.root) (hnow : session.clock.seconds < 2 ^ 64)
    {result : α} {kept : Json} (h : (review.ask world.model).result = .ok (.usable result kept)) :
  review.resultAlone session world = .ok result
    ∧ (session.cache.CanKeep world.files review.key.fingerprint →
      review.valueAlone session world = Cache.storedValue? kept)
    ∧ (¬ session.cache.CanKeep world.files review.key.fingerprint →
      review.valueAlone session world = session.cache.value? world.files review.key.fingerprint)
  := by
  have hask : world.ask review.ask = (.ok (.usable result kept), (world.ask review.ask).2) :=
    Prod.ext h rfl
  obtain ⟨hnormal, hfits⟩ := hregular.of_usable world.model result kept h
  rw [resultAlone, valueAlone, Session.perform_of_not_found hnone, Session.askAndKeep_of_usable hask]
  use rfl
  apply Cache.value?_of_store hroot hregular.isValid hnormal hfits hnow

end

/-- A review that is carried out alone fails only if the model cannot be asked. -/
theorem exists_of_resultAlone_eq_error {review : CachedReview μ α} {world : World μ}
    {e : ReviewError} (h : review.resultAlone session world = .error e) :
  ∃ cause : InferenceError, e = .inference cause ∧ cause.isFatal
  := by
  cases hfound : review.found? session.cache world.files with
  | some result =>
      rw [(alone_of_found hfound).1] at h
      cases h
  | none =>
      rcases hask : world.ask review.ask with ⟨e' | ⟨value, kept⟩ | reason, later⟩
      · have hresult : (review.ask world.model).result = .error e' := congrArg Prod.fst hask
        cases hfatal : e'.isFatal with
        | true =>
            rw [(alone_of_fatal hfound hresult hfatal).1] at h
            exact ⟨e', (Except.error.inj h).symm, hfatal⟩
        | false =>
            rw [(alone_of_failure hfound hresult hfatal).1] at h
            cases h
      · rw [resultAlone, Session.perform_of_not_found hfound, Session.askAndKeep_of_usable hask] at h
        cases h
      · rw [(alone_of_useless hfound (congrArg Prod.fst hask)).1] at h
        cases h

/-- Reviews of one fingerprint that ask the same leave the same value behind. -/
theorem valueAlone_eq {review other : CachedReview μ α} {world : World μ}
    (hregular : review.IsRegular) (hregular' : other.IsRegular)
    (hroot : world.files.HasFolder session.cache.root) (hnow : session.clock.seconds < 2 ^ 64)
    (hkey : review.key.fingerprint = other.key.fingerprint) (hrefresh : review.refresh = other.refresh)
    (hreads : review.readBack? = other.readBack?) (hask : review.ask = other.ask) :
  review.valueAlone session world = other.valueAlone session world
  := by
  have hsame : review.found? session.cache world.files = other.found? session.cache world.files := by
    rw [found?_eq, found?_eq, hkey, hrefresh, hreads]
  cases hfound : review.found? session.cache world.files with
  | some result =>
      rw [(alone_of_found hfound).2, (alone_of_found (hsame ▸ hfound)).2, hkey]
  | none =>
      have hfound' : other.found? session.cache world.files = none := hsame ▸ hfound
      rcases hresult : (review.ask world.model).result with e | ⟨value, kept⟩ | reason
      · have hresult' : (other.ask world.model).result = .error e := hask ▸ hresult
        cases hfatal : e.isFatal with
        | true =>
            rw [(alone_of_fatal hfound hresult hfatal).2, (alone_of_fatal hfound' hresult' hfatal).2,
              hkey]
        | false =>
            rw [(alone_of_failure hfound hresult hfatal).2,
              (alone_of_failure hfound' hresult' hfatal).2, hkey]
      · have hresult' : (other.ask world.model).result = .ok (.usable value kept) := hask ▸ hresult
        obtain ⟨-, hcan, hcannot⟩ := alone_of_usable hfound hregular hroot hnow hresult
        obtain ⟨-, hcan', hcannot'⟩ := alone_of_usable hfound' hregular' hroot hnow hresult'
        by_cases hkeep : session.cache.CanKeep world.files review.key.fingerprint
        · rw [hcan hkeep, hcan' (hkey ▸ hkeep)]
        · rw [hcannot hkeep, hcannot' (hkey ▸ hkeep), hkey]
      · have hresult' : (other.ask world.model).result = .ok (.useless reason) := hask ▸ hresult
        rw [(alone_of_useless hfound hresult).2, (alone_of_useless hfound' hresult').2, hkey]

end CachedReview

end Scrutiny

/-!
## Results that do not depend on the schedule

If the replies of the model depend on the question alone, each review gives in every schedule what it
gives if it is carried out alone, and leaves the same value behind.  Whether it asks the model, or
finds what another review of its fingerprint has left, makes no difference.
-/

namespace Scrutiny

variable {μ α : Type} {session : Session μ} {start : World μ}

namespace CachedReview

/-- A review whose reply does not depend on the state of the model. -/
structure IsSteady (review : CachedReview μ α) : Prop extends review.IsFaithful where
  result_ask_eq : ∀ model model', (review.ask model).result = (review.ask model').result

/-- A value under the fingerprint of a review that was there at the start, or that the review leaves if
it is carried out alone. -/
def MayFind (review : CachedReview μ α) (session : Session μ) (start : World μ) (value? : Option Json) :
    Prop :=
  value? = session.cache.value? start.files review.key.fingerprint
    ∨ value? = review.valueAlone session start

/-- What a review has come to in a phase, if it gives what it gives alone. -/
def IsAt (review : CachedReview μ α) (session : Session μ) (start : World μ) (value? : Option Json) :
    JobPhase α → Prop
  | .idle | .atWriter | .searching => True
  | .atPermit | .asking => review.found? session.cache start.files = none
  | .keeping result kept => review.found? session.cache start.files = none
    ∧ (review.ask start.model).result = .ok (.usable result kept)
  | .atIndex result | .indexing result =>
    (review.resultAlone session start).map some = .ok result
      ∧ value? = review.valueAlone session start
  | .done result =>
    (review.resultAlone session start).map some = result ∧ value? = review.valueAlone session start

end CachedReview

namespace Schedule

variable {reviews : List (CachedReview μ α)} {state next : Schedule μ α} {i : Nat}

/-- Each review has come to what it comes to alone, and under each fingerprint there is what was there
at the start, or what is there at the end. -/
structure IsOnCourse (session : Session μ) (start : World μ) (reviews : List (CachedReview μ α))
    (state : Schedule μ α) : Prop where
  jobs_eq : state.jobs.map Prod.fst = reviews.map Job.review
  canKeep_iff : ∀ fingerprint, session.cache.CanKeep state.world.files fingerprint
    ↔ session.cache.CanKeep start.files fingerprint
  value?_eq : ∀ fingerprint : Fingerprint, fingerprint.IsValid →
    (∀ review ∈ reviews, review.key.fingerprint ≠ fingerprint) →
    session.cache.value? state.world.files fingerprint = session.cache.value? start.files fingerprint
  mayFind : ∀ review ∈ reviews,
    review.MayFind session start (session.cache.value? state.world.files review.key.fingerprint)
  isAt : ∀ (i : Nat) (review : CachedReview μ α) (phase : JobPhase α),
    state.jobs[i]? = some (.review review, phase) →
    review.IsAt session start (session.cache.value? state.world.files review.key.fingerprint) phase

/-- Reviews that give the same in every schedule: steady ones, where those of one fingerprint leave
the same value behind. -/
structure AreSteady (session : Session μ) (start : World μ) (reviews : List (CachedReview μ α)) :
    Prop where
  isSteady : ∀ review ∈ reviews, review.IsSteady
  valueAlone_eq : ∀ review ∈ reviews, ∀ other ∈ reviews,
    review.key.fingerprint = other.key.fingerprint →
    review.valueAlone session start = other.valueAlone session start

end Schedule

/-! ### What a review does in any order -/

namespace CachedReview

variable {review : CachedReview μ α} {tree : FileTree}

section

variable (hvalue : review.MayFind session start (session.cache.value? tree review.key.fingerprint))

include hvalue

theorem value?_eq_start_of_valueAlone_eq
    (halone : review.valueAlone session start
      = session.cache.value? start.files review.key.fingerprint) :
  session.cache.value? tree review.key.fingerprint
    = session.cache.value? start.files review.key.fingerprint
  := by
  rcases hvalue with heq | heq
  · apply heq
  · rw [heq, halone]

/-- If a review finds nothing, it finds nothing at the start. -/
theorem found?_start_eq_none (hfound : review.found? session.cache tree = none) :
  review.found? session.cache start.files = none
  := by
  cases hstart : review.found? session.cache start.files with
  | none => rfl
  | some result =>
      have hsame := found?_congr (value?_eq_start_of_valueAlone_eq hvalue (alone_of_found hstart).2)
      rw [hfound, hstart] at hsame
      cases hsame

/-- What a review finds is what it gives alone. -/
theorem IsSteady.of_found (h : review.IsSteady) (hroot : start.files.HasFolder session.cache.root)
    (hnow : session.clock.seconds < 2 ^ 64) {result : α}
    (hfound : review.found? session.cache tree = some result) :
  review.resultAlone session start = .ok result
    ∧ session.cache.value? tree review.key.fingerprint = review.valueAlone session start
  := by
  have hunchanged (halone : review.valueAlone session start
      = session.cache.value? start.files review.key.fingerprint) :
      review.found? session.cache start.files = some result := by
    rw [← hfound]
    exact (found?_congr (value?_eq_start_of_valueAlone_eq hvalue halone)).symm
  cases hstart : review.found? session.cache start.files with
  | some other =>
      obtain ⟨halone, hkept⟩ := alone_of_found hstart
      have hsame := hunchanged hkept
      rw [hstart] at hsame
      rw [halone, hkept, Option.some.inj hsame]
      exact ⟨rfl, value?_eq_start_of_valueAlone_eq hvalue hkept⟩
  | none =>
      have hchanged : review.valueAlone session start
          ≠ session.cache.value? start.files review.key.fingerprint := by
        intro halone
        have hsame := hunchanged halone
        rw [hstart] at hsame
        cases hsame
      rcases hresult : (review.ask start.model).result with e | ⟨value, kept⟩ | reason
      · cases hfatal : e.isFatal with
        | true => cases hchanged (alone_of_fatal hstart hresult hfatal).2
        | false => cases hchanged (alone_of_failure hstart hresult hfatal).2
      · obtain ⟨halone, hcan, hcannot⟩ := alone_of_usable hstart h.toIsRegular hroot hnow hresult
        by_cases hkeep : session.cache.CanKeep start.files review.key.fingerprint
        · have hnew : session.cache.value? tree review.key.fingerprint
              = review.valueAlone session start := by
            rcases hvalue with heq | heq
            · have hsame := found?_congr heq
              rw [hfound, hstart] at hsame
              cases hsame
            · apply heq
          rw [found?_eq, hnew, hcan hkeep, Cache.storedValue?] at hfound
          obtain ⟨-, hfound⟩ := Option.ite_none_left_eq_some.mp hfound
          obtain ⟨read, hread, hback⟩ := Option.bind_eq_some_iff.mp hfound
          obtain ⟨-, hread⟩ := Option.ite_none_right_eq_some.mp hread
          obtain rfl := Option.some.inj hread
          rw [h.readBack?_eq start.model value kept hresult] at hback
          rw [halone, Option.some.inj hback]
          exact ⟨rfl, hnew⟩
        · cases hchanged (hcannot hkeep)
      · cases hchanged (alone_of_useless hstart hresult).2

end

/-- Each move of a review brings it to what it comes to alone. -/
theorem IsSteady.isAt_of_move (h : review.IsSteady) (hstart : start.files.HasFolder session.cache.root)
    (hnow : session.clock.seconds < 2 ^ 64) {world world' : World μ} {phase phase' : JobPhase α}
    (hroot : world.files.HasFolder session.cache.root)
    (hkeep : session.cache.CanKeep world.files review.key.fingerprint
      ↔ session.cache.CanKeep start.files review.key.fingerprint)
    (hvalue : review.MayFind session start (session.cache.value? world.files review.key.fingerprint))
    (hat : review.IsAt session start (session.cache.value? world.files review.key.fingerprint) phase)
    (hmove : Move session world (.review review) phase world' phase') :
  review.IsAt session start (valueAfter (session.cache.value? world.files review.key.fingerprint)
      phase phase') phase'
    ∧ (valueAfter (session.cache.value? world.files review.key.fingerprint) phase phase'
        = session.cache.value? world.files review.key.fingerprint
      ∨ valueAfter (session.cache.value? world.files review.key.fingerprint) phase phase'
        = review.valueAlone session start)
  := by
  have hresult {answer : Except InferenceError (Judgement α)} {later : World μ}
      (hask : world.ask review.ask = (answer, later)) : (review.ask start.model).result = answer := by
    rw [h.result_ask_eq start.model world.model]
    apply congrArg Prod.fst hask
  cases hmove with
  | ask | take => exact ⟨trivial, .inl rfl⟩
  | hit hfound =>
      obtain ⟨halone, hkept⟩ := h.of_found hvalue hstart hnow hfound
      use ⟨by rw [halone]; rfl, hkept⟩, .inl rfl
  | miss hfound => exact ⟨found?_start_eq_none hvalue hfound, .inl rfl⟩
  | permit => exact ⟨hat, .inl rfl⟩
  | usable hask => exact ⟨⟨hat, hresult hask⟩, .inl rfl⟩
  | useless hask =>
      obtain ⟨halone, hkept⟩ := alone_of_useless hat (hresult hask)
      use ⟨by rw [halone]; rfl, ?_⟩, .inl rfl
      rw [hkept]
      apply value?_eq_start_of_valueAlone_eq hvalue hkept
  | failure hask hfatal =>
      obtain ⟨halone, hkept⟩ := alone_of_failure hat (hresult hask) hfatal
      use ⟨by rw [halone]; rfl, ?_⟩, .inl rfl
      rw [hkept]
      apply value?_eq_start_of_valueAlone_eq hvalue hkept
  | fatal hask hfatal =>
      obtain ⟨halone, hkept⟩ := alone_of_fatal hat (hresult hask) hfatal
      use ⟨by rw [halone]; rfl, ?_⟩, .inl rfl
      rw [hkept]
      apply value?_eq_start_of_valueAlone_eq hvalue hkept
  | @kept _ result kept files hwrite =>
      obtain ⟨hnone, husable⟩ := hat
      obtain ⟨halone, hcan, -⟩ := alone_of_usable hnone h.toIsRegular hstart hnow husable
      have hfree := (Cache.writeJson_entryPath_isOk_iff hroot h.isValid _).mp ⟨files, hwrite⟩
      have hkept := hcan (hkeep.mp hfree)
      use ⟨by rw [halone]; rfl, hkept.symm⟩, .inr hkept.symm
  | @notKept _ result kept files e hwrite =>
      obtain ⟨hnone, husable⟩ := hat
      obtain ⟨halone, -, hcannot⟩ := alone_of_usable hnone h.toIsRegular hstart hnow husable
      have hfull : ¬ session.cache.CanKeep world.files review.key.fingerprint := by
        intro hfree
        obtain ⟨_, hok⟩ := (Cache.writeJson_entryPath_isOk_iff hroot h.isValid
          (CacheEntry.ofKey review.key kept session.clock.seconds).toJson).mpr hfree
        rw [hok] at hwrite
        cases congrArg Prod.fst hwrite
      have hkept := hcannot fun hfree => hfull (hkeep.mpr hfree)
      use ⟨by rw [halone]; rfl, ?_⟩, .inl rfl
      rw [hkept]
      apply value?_eq_start_of_valueAlone_eq hvalue hkept
  | takeIndex => exact ⟨hat, .inl rfl⟩
  | listed => exact ⟨hat, .inl rfl⟩

/-- What a review has come to, it has still come to after a value was left that it would leave itself. -/
theorem IsAt.of_value?_or {value? value?' : Option Json} {phase : JobPhase α}
    (h : review.IsAt session start value? phase)
    (hvalue : value?' = value? ∨ value?' = review.valueAlone session start) :
  review.IsAt session start value?' phase
  := by
  cases phase with
  | atIndex | indexing | done =>
      obtain ⟨halone, hkept⟩ := h
      use halone
      rcases hvalue with rfl | rfl
      · apply hkept
      · rfl
  | _ => exact h

end CachedReview

namespace Schedule

variable {reviews : List (CachedReview μ α)} {state next : Schedule μ α} {i : Nat}

theorem isOnCourse_ofJobs (session : Session μ) (start : World μ) (reviews : List (CachedReview μ α)) :
  (ofJobs session start (reviews.map .review)).IsOnCourse session start reviews
  := by
  constructor
  · apply map_fst_ofJobs
  · intro fingerprint
    rfl
  · intro fingerprint _ _
    rfl
  · intro review _
    exact .inl rfl
  · intro i review phase hjob
    obtain rfl := phase_eq_idle_of_ofJobs hjob
    trivial

theorem isOnCourse_of_step? (h : state.IsOnCourse session start reviews)
    (hsteady : AreSteady session start reviews) (hstocked : state.IsStocked session)
    (hstart : start.files.HasFolder session.cache.root) (hnow : session.clock.seconds < 2 ^ 64)
    (hstep : state.step? session i = some next) :
  next.IsOnCourse session start reviews
  := by
  have hjobs := map_fst_of_step? hstep
  obtain ⟨job, phase, hjob, world, phase', hmove, -, rfl⟩ := step?_eq_some_iff.mp hstep
  obtain ⟨review, hreview, rfl⟩ := exists_review_of_getElem? h.jobs_eq hjob
  have heffect := hstocked.effect hnow hjob hmove
  obtain ⟨hat, hself⟩ := (hsteady.isSteady review hreview).isAt_of_move hstart hnow hstocked.hasFolder
    (h.canKeep_iff _) (h.mayFind review hreview) (h.isAt i review phase hjob) hmove
  rw [← heffect.value?_self] at hat hself
  -- Any other review sees what was there before, or what it would leave itself.
  have hothers {other : CachedReview μ α} (hother : other ∈ reviews) :
      session.cache.value? world.files other.key.fingerprint
          = session.cache.value? state.world.files other.key.fingerprint
        ∨ session.cache.value? world.files other.key.fingerprint = other.valueAlone session start := by
    by_cases hkey : other.key.fingerprint = review.key.fingerprint
    · rw [hkey, hsteady.valueAlone_eq other hother review hreview hkey]
      apply hself
    · left
      apply heffect.value?_ne _ (hsteady.isSteady other hother).isValid hkey
  constructor
  · rw [hjobs, h.jobs_eq]
  · intro fingerprint
    rw [← h.canKeep_iff]
    apply heffect.canKeep_iff
  · intro fingerprint hvalid hne
    rw [← h.value?_eq fingerprint hvalid hne]
    apply heffect.value?_ne fingerprint hvalid (Ne.symm (hne review hreview))
  · intro other hother
    rcases hothers hother with heq | heq
    · exact (h.mayFind other hother).imp heq.trans heq.trans
    · exact .inr heq
  · intro j other later hlater
    rcases of_getElem?_withPhase hjob hlater with ⟨-, heq, rfl⟩ | ⟨-, hlater⟩
    · obtain rfl := Job.review.inj heq
      apply hat
    · apply (h.isAt j other later hlater).of_value?_or (hothers (mem_of_getElem? h.jobs_eq hlater))

/-! ### What all reviews come to -/

/-- What comes of reviews that run at the same time: every one gives what it gives alone, or one of
those that fail alone has failed. -/
theorem of_outcome?_of_areSteady (hsteady : AreSteady session start reviews)
    (hstart : start.files.HasFolder session.cache.root) (hnow : session.clock.seconds < 2 ^ 64)
    {order : List Nat} (hrun : (ofJobs session start (reviews.map .review)).run? session order = some state)
    {result : Except ReviewError (List α)} (houtcome : state.outcome? = some result) :
  (∃ found, result = .ok found
      ∧ List.Forall₂ (fun review value => review.resultAlone session start = .ok value) reviews found
      ∧ (∀ review ∈ reviews, session.cache.value? state.world.files review.key.fingerprint
        = review.valueAlone session start)
      ∧ ∀ fingerprint : Fingerprint, fingerprint.IsValid →
        (∀ review ∈ reviews, review.key.fingerprint ≠ fingerprint) →
        session.cache.value? state.world.files fingerprint
          = session.cache.value? start.files fingerprint)
    ∨ ∃ e, result = .error e ∧ ∃ review ∈ reviews, review.resultAlone session start = .error e
  := by
  have hsound := sound_of_run? (sound_ofJobs session start _) hrun
  have hcourse : state.IsOnCourse session start reviews ∧ state.IsStocked session := by
    apply of_run? (P := fun state => state.IsOnCourse session start reviews ∧ state.IsStocked session)
      _ _ hrun
    · rintro i - state next ⟨hcourse, hstocked⟩ hstep
      use isOnCourse_of_step? hcourse hsteady hstocked hstart hnow hstep
      apply isStocked_of_step? hstocked hnow hstep
    · use isOnCourse_ofJobs session start reviews
      apply isStocked_ofReviews hstart
      intro review hreview
      apply (hsteady.isSteady review hreview).toIsRegular
  obtain ⟨hcourse, -⟩ := hcourse
  cases result with
  | error e =>
      right
      use e, rfl
      obtain ⟨i, job, hjob⟩ := exists_of_outcome?_eq_error houtcome
      obtain ⟨review, hreview, rfl⟩ := exists_review_of_getElem? hcourse.jobs_eq hjob
      use review, hreview
      obtain ⟨halone, -⟩ := hcourse.isAt i review _ hjob
      cases hresult : review.resultAlone session start with
      | error e' =>
          rw [hresult] at halone
          apply congrArg Except.error (Except.error.inj halone)
      | ok value =>
          rw [hresult] at halone
          cases halone
  | ok found =>
      left
      use found, rfl
      have hresults := forall₂_of_outcome?_eq_ok (P := fun review value =>
        session.cache.value? state.world.files review.key.fingerprint
            = review.valueAlone session start
          ∧ review.resultAlone session start = .ok value) hsound hcourse.jobs_eq (by
          intro i review result hjob
          obtain ⟨halone, hkept⟩ := hcourse.isAt i review _ hjob
          cases hresult : review.resultAlone session start with
          | error e =>
              rw [hresult] at halone
              cases halone
          | ok value =>
              rw [hresult] at halone
              exact ⟨value, (Except.ok.inj halone).symm, hkept, rfl⟩) houtcome
      obtain ⟨hvalues, hresults⟩ := (List.forall₂_and_left _ _).mp hresults
      exact ⟨hresults, hvalues, hcourse.value?_eq⟩

/-- Reviews that run at the same time come to the same in any two orders: to the same results with the
same values in the cache, or to errors because the model cannot be asked. -/
theorem outcome?_eq_of_areSteady (hsteady : AreSteady session start reviews)
    (hstart : start.files.HasFolder session.cache.root) (hnow : session.clock.seconds < 2 ^ 64)
    {order order' : List Nat} {last : Schedule μ α}
    (hrun : (ofJobs session start (reviews.map .review)).run? session order = some state)
    (hrun' : (ofJobs session start (reviews.map .review)).run? session order' = some last)
    {result result' : Except ReviewError (List α)} (houtcome : state.outcome? = some result)
    (houtcome' : last.outcome? = some result') :
  (∃ found, result = .ok found ∧ result' = .ok found
      ∧ session.cache.Agrees state.world.files last.world.files)
    ∨ ∃ cause cause' : InferenceError, result = .error (.inference cause)
      ∧ result' = .error (.inference cause') ∧ cause.isFatal ∧ cause'.isFatal
  := by
  rcases of_outcome?_of_areSteady hsteady hstart hnow hrun houtcome with
    ⟨found, rfl, hfound, hself, hothers⟩ | ⟨e, rfl, review, hreview, he⟩ <;>
  rcases of_outcome?_of_areSteady hsteady hstart hnow hrun' houtcome' with
    ⟨found', rfl, hfound', hself', hothers'⟩ | ⟨e', rfl, review', hreview', he'⟩
  · left
    have hunique : found = found' := by
      apply List.right_unique_forall₂' _ hfound hfound'
      intro review value value' hvalue hvalue'
      rw [hvalue] at hvalue'
      apply Except.ok.inj hvalue'
    use found, rfl, congrArg _ hunique.symm
    intro fingerprint hvalid
    by_cases hmem : ∃ review ∈ reviews, review.key.fingerprint = fingerprint
    · obtain ⟨review, hreview, rfl⟩ := hmem
      rw [hself review hreview, hself' review hreview]
    · push Not at hmem
      rw [hothers fingerprint hvalid hmem, hothers' fingerprint hvalid hmem]
  · obtain ⟨value, -, hvalue⟩ := exists_of_mem_left hfound hreview'
    rw [he'] at hvalue
    cases hvalue
  · obtain ⟨value, -, hvalue⟩ := exists_of_mem_left hfound' hreview
    rw [he] at hvalue
    cases hvalue
  · right
    obtain ⟨cause, rfl, hfatal⟩ := CachedReview.exists_of_resultAlone_eq_error he
    obtain ⟨cause', rfl, hfatal'⟩ := CachedReview.exists_of_resultAlone_eq_error he'
    exact ⟨cause, cause', rfl, rfl, hfatal, hfatal'⟩

end Schedule

end Scrutiny
