import Scrutiny.Proofs.InOrder
import Scrutiny.Proofs.Schedule.Progress

/-!
# Outcomes

The outcome of a schedule is read off the phases of its jobs: the results of all, or the error of one
of those that failed.
-/

namespace Scrutiny

variable {μ α : Type} {session : Session μ}

namespace JobPhase

/-- What came of a job in the phase, if it has come to its end. -/
def result? : JobPhase α → Option (Except ReviewError (Option α))
  | .done result => some result
  | _ => none

theorem result?_eq_some_iff {phase : JobPhase α} {result : Except ReviewError (Option α)} :
  phase.result? = some result ↔ phase = .done result
  := by
  cases phase <;> simp [result?]

theorem isSome_result? (phase : JobPhase α) :
  phase.result?.isSome = phase.isDone
  := by
  cases phase <;> rfl

end JobPhase

namespace Schedule

variable {state : Schedule μ α} {i : Nat} {job : Job μ α}

theorem resultOf?_eq (state : Schedule μ α) (i : Nat) :
  state.resultOf? i = (state.jobs[i]?).bind (JobPhase.result? ∘ Prod.snd)
  := by
  rw [resultOf?]
  rcases state.jobs[i]? with _ | ⟨job, phase⟩
  · rfl
  · cases phase <;> rfl

/-- The error that a job failed with. -/
def errorOf? (state : Schedule μ α) (i : Nat) : Option ReviewError :=
  match state.resultOf? i with
  | some (.error e) => some e
  | _ => none

theorem errorOf?_eq_some_iff {e : ReviewError} :
  state.errorOf? i = some e ↔ ∃ job, state.jobs[i]? = some (job, .done (.error e))
  := by
  rw [errorOf?, resultOf?_eq]
  rcases state.jobs[i]? with _ | ⟨job, phase⟩
  · simp
  · rcases phase with _ | _ | _ | _ | _ | _ | _ | _ | (_ | _) <;> simp [JobPhase.result?]

theorem outcome?_eq (state : Schedule μ α) :
  state.outcome?
    = match state.finished.findSome? state.errorOf? with
      | some e => some (.error e)
      | none => (state.jobs.mapM (JobPhase.result? ∘ Prod.snd)).map fun results =>
          .ok (results.filterMap fun result => result.toOption.bind id)
  := by
  rw [← mapM_range_getElem?]
  simp only [← resultOf?_eq]
  rfl

/-- If the outcome is an error, some job failed with it. -/
theorem exists_of_outcome?_eq_error {e : ReviewError} (h : state.outcome? = some (.error e)) :
  ∃ (i : Nat) (job : Job μ α), state.jobs[i]? = some (job, .done (.error e))
  := by
  rw [outcome?_eq] at h
  cases hfailure : state.finished.findSome? state.errorOf? with
  | some e' =>
      rw [hfailure] at h
      obtain rfl : e' = e := Except.error.inj (Option.some.inj h)
      obtain ⟨i, -, he⟩ := List.exists_of_findSome?_eq_some hfailure
      exact ⟨i, errorOf?_eq_some_iff.mp he⟩
  | none =>
      rw [hfailure] at h
      obtain ⟨results, -, heq⟩ := Option.map_eq_some_iff.mp h
      cases heq

/-- If some job failed, the outcome is an error. -/
theorem Sound.exists_outcome?_eq_error (h : state.Sound session) {e : ReviewError}
    (hjob : state.jobs[i]? = some (job, .done (.error e))) :
  ∃ e', state.outcome? = some (.error e')
  := by
  have hfinished : i ∈ state.finished := (h.mem_finished i).mpr ⟨_, hjob, rfl⟩
  have hsome : (state.finished.findSome? state.errorOf?).isSome := by
    apply List.findSome?_isSome_iff.mpr
    use i, hfinished
    rw [errorOf?_eq_some_iff.mpr ⟨job, hjob⟩, Option.isSome_some]
  obtain ⟨e', he'⟩ := Option.isSome_iff_exists.mp hsome
  use e'
  rw [outcome?_eq, he']

/-- If all jobs have come to their end, there is an outcome. -/
theorem isSome_outcome?_of_isOver (h : state.IsOver) :
  state.outcome?.isSome
  := by
  rw [outcome?_eq]
  split
  · rfl
  · have hresults : List.Forall₂ (fun pair result => (JobPhase.result? ∘ Prod.snd) pair = some result) state.jobs
        (state.jobs.map fun pair => (pair.2.result?).getD (.ok none)) := by
      rw [List.forall₂_map_right_iff, List.forall₂_same]
      intro pair hpair
      have hdone := h pair hpair
      rw [← JobPhase.isSome_result?] at hdone
      obtain ⟨result, hresult⟩ := Option.isSome_iff_exists.mp hdone
      rw [hresult, Option.getD_some]
      apply hresult
    rw [mapM_eq_some_iff.mpr hresults]
    rfl

/-- If the outcome is no error, all jobs have come to their end. -/
theorem isOver_of_outcome?_eq_ok {found : List α} (h : state.outcome? = some (.ok found)) :
  state.IsOver
  := by
  rw [outcome?_eq] at h
  cases hfailure : state.finished.findSome? state.errorOf? with
  | some e =>
      rw [hfailure] at h
      cases h
  | none =>
      rw [hfailure] at h
      obtain ⟨results, hresults, -⟩ := Option.map_eq_some_iff.mp h
      intro pair hpair
      obtain ⟨result, -, hresult⟩ := exists_of_mem_left (mapM_eq_some_iff.mp hresults) hpair
      rw [← JobPhase.isSome_result?]
      exact Option.isSome_of_eq_some hresult

/-- If all reviews have results, these are the outcome. -/
theorem outcome?_eq_ok {found : List α}
    (h : List.Forall₂ (fun pair result => pair.2 = JobPhase.done (.ok (some result))) state.jobs found) :
  state.outcome? = some (.ok found)
  := by
  have hnone : state.finished.findSome? state.errorOf? = none := by
    apply List.findSome?_eq_none_iff.mpr
    intro i _
    apply Option.eq_none_iff_forall_ne_some.mpr
    intro e he
    obtain ⟨job, hjob⟩ := errorOf?_eq_some_iff.mp he
    have hlt := (List.getElem?_eq_some_iff.mp hjob).1
    have hphase := (List.forall₂_iff_get.mp h).2 i hlt (h.length_eq ▸ hlt)
    rw [List.get_eq_getElem, (List.getElem?_eq_some_iff.mp hjob).2] at hphase
    cases hphase
  have hresults : (state.jobs.mapM (JobPhase.result? ∘ Prod.snd))
      = some (found.map fun result => .ok (some result)) := by
    apply mapM_eq_some_iff.mpr
    rw [List.forall₂_map_right_iff]
    apply h.imp
    intro pair result hphase
    apply JobPhase.result?_eq_some_iff.mpr hphase
  rw [outcome?_eq, hnone, hresults]
  change some (Except.ok _) = _
  rw [List.filterMap_map]
  apply congrArg (some ∘ Except.ok)
  apply List.filterMap_some

/-- If the outcome is no error, it is the list of the results of the jobs, in order. -/
theorem forall₂_jobs_of_outcome?_eq_ok {found : List α} (hsound : state.Sound session)
    (hdone : ∀ (i : Nat) (job : Job μ α) (result : Option α),
      state.jobs[i]? = some (job, .done (.ok result)) → result.isSome)
    (h : state.outcome? = some (.ok found)) :
  List.Forall₂ (fun pair value => pair.2 = JobPhase.done (.ok (some value))) state.jobs found
  := by
  -- A job that failed would make the outcome an error.
  have hok {i : Nat} {job : Job μ α} {e : ReviewError}
      (hjob : state.jobs[i]? = some (job, .done (.error e))) : False := by
    obtain ⟨e', he'⟩ := hsound.exists_outcome?_eq_error hjob
    rw [h] at he'
    cases he'
  rw [outcome?_eq] at h
  cases hfailure : state.finished.findSome? state.errorOf? with
  | some e =>
      rw [hfailure] at h
      cases h
  | none =>
      rw [hfailure] at h
      obtain ⟨results, hresults, hfound⟩ := Option.map_eq_some_iff.mp h
      obtain rfl := Except.ok.inj hfound
      have hpairs : List.Forall₂ (fun pair result => pair ∈ state.jobs ∧ pair.2 = .done result)
          state.jobs results := by
        apply (List.forall₂_and_left _ _).mpr
        use fun pair hpair => hpair
        apply (mapM_eq_some_iff.mp hresults).imp
        intro pair result
        apply JobPhase.result?_eq_some_iff.mp
      apply forall₂_filterMap _ hpairs
      rintro ⟨job, phase⟩ result ⟨hmem, rfl⟩
      obtain ⟨i, hjob⟩ := List.getElem?_of_mem hmem
      cases result with
      | error e => cases hok hjob
      | ok result =>
          obtain ⟨value, rfl⟩ := Option.isSome_iff_exists.mp (hdone i job result hjob)
          use value, rfl

/-- The outcome of reviews is the list of their results, in order. -/
theorem forall₂_of_outcome?_eq_ok {found : List α} {reviews : List (CachedReview μ α)}
    {P : CachedReview μ α → α → Prop} (hsound : state.Sound session)
    (hjobs : state.jobs.map Prod.fst = reviews.map Job.review)
    (hdone : ∀ (i : Nat) (review : CachedReview μ α) (result : Option α),
      state.jobs[i]? = some (.review review, .done (.ok result)) →
      ∃ value, result = some value ∧ P review value)
    (h : state.outcome? = some (.ok found)) :
  List.Forall₂ P reviews found
  := by
  have hreview {i : Nat} {job : Job μ α} {phase : JobPhase α}
      (hjob : state.jobs[i]? = some (job, phase)) : ∃ review, Job.review review = job := by
    obtain ⟨review, -, heq⟩ := exists_review_of_getElem? hjobs hjob
    exact ⟨review, heq⟩
  have hresults := forall₂_jobs_of_outcome?_eq_ok hsound (by
    intro i job result hjob
    obtain ⟨review, rfl⟩ := hreview hjob
    obtain ⟨value, rfl, -⟩ := hdone i review result hjob
    rfl) h
  have hvalues : List.Forall₂ (fun job value => ∀ review, job = Job.review review → P review value)
      (state.jobs.map Prod.fst) found := by
    rw [List.forall₂_map_left_iff]
    apply ((List.forall₂_and_left _ _).mpr ⟨fun pair hpair => hpair, hresults⟩).imp
    rintro ⟨job, phase⟩ value ⟨hmem, rfl⟩ review rfl
    obtain ⟨i, hjob⟩ := List.getElem?_of_mem hmem
    obtain ⟨_, heq, hvalue⟩ := hdone i review (some value) hjob
    rw [Option.some.inj heq]
    apply hvalue
  rw [hjobs, List.forall₂_map_left_iff] at hvalues
  apply hvalues.imp
  intro review value hvalue
  apply hvalue review rfl

end Schedule

end Scrutiny
