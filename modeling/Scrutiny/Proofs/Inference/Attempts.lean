import Mathlib.Algebra.Ring.Nat
import Mathlib.Data.List.Nodup
import Mathlib.Data.List.Range
import Mathlib.Data.Nat.Find
import Scrutiny.Inference.Client

/-!
# Answers and attempts

What a model answers on its own, and how often it is asked.
-/

/-!
## Answers of a model

However many attempts it takes, an answer is one that was accepted.  A model whose replies depend on
the request alone gives one answer to one question.
-/

namespace Scrutiny

/-- The replies of a model depend on the request alone. -/
def Model.IsStateless {μ : Type} (model : Model μ) : Prop :=
  ∀ state state' request, (model state request).1 = (model state' request).1

namespace Inference

variable {α μ : Type} {config : ModelConfig} {model : Model μ} {ask : Nat → ChatRequest}
  {accept : String → Except InferenceError α} {left number : Nat} {last : InferenceError}
  {waited waited' : Duration} {state state' : μ}

/-- An answer was accepted. -/
theorem exists_accept_of_attempt {value : α}
    (h : (attempt config model ask accept left number last waited state).result = .ok value) :
  ∃ reply, accept reply = .ok value
  := by
  induction left generalizing number last waited state with
  | zero =>
      rw [attempt] at h
      cases h
  | succ left ih =>
      rw [attempt] at h
      dsimp only at h
      split at h
      · rename_i found hfound
        obtain rfl := Except.ok.inj h
        cases hreply : (model state (ask number)).1 with
        | error e =>
            rw [hreply] at hfound
            cases hfound
        | ok reply =>
            rw [hreply] at hfound
            use reply
            apply hfound
      · split at h
        · apply ih h
        · cases h

/-- The answer to a question does not depend on the state of a model whose replies do not. -/
theorem result_attempt_eq (hmodel : Model.IsStateless model) :
  (attempt config model ask accept left number last waited state).result
    = (attempt config model ask accept left number last waited' state').result
  := by
  induction left generalizing number last waited waited' state state' with
  | zero =>
      rw [attempt, attempt]
  | succ left ih =>
      rw [attempt, attempt]
      dsimp only
      rw [hmodel state state' (ask number)]
      split
      · rfl
      · split
        · apply ih
        · rfl

end Inference

end Scrutiny

/-!
## Attempts

Asking ends with the first answer that no further attempt can better, or with the last attempt that
the configuration allows.  This is the same for objects and for texts: only what counts as usable
and what a retry asks are different.
-/

namespace Scrutiny.Inference

variable {α : Type}

/-- An answer after which nothing is asked again: a usable reply, or a failure that another attempt
cannot mend. -/
def IsFinal (usable? : String → Option α) : Except InferenceError String → Prop
  | .ok reply => (usable? reply).isSome
  | .error (.configuration _) | .error (.serialization _) => True
  | .error (.malformed _) | .error (.transient _) => False

/-- What the last answer makes of the asking.  A reply that is of no use is malformed. -/
def outcome (usable? : String → Option α) (complaint : String → String) :
    Except InferenceError String → Except InferenceError α
  | .ok reply =>
    match usable? reply with
    | some value => .ok value
    | none => .error (.malformed (complaint reply))
  | .error e => .error e

/-- The nanoseconds of waiting before the first so many retries.  A wait is at most the longest
span there is. -/
def waits (config : ModelConfig) (retries : Nat) : Nat :=
  ((List.range' 1 retries).map fun i =>
    min (config.baseBackoff.nanoseconds * 2 ^ min (i - 1) 5) Duration.longest).sum

/-- The asking goes by the answers: it ends with the first final one, or else with the last that
the configuration allows. -/
structure GoesBy (config : ModelConfig) (answers : Nat → Except InferenceError String)
    (usable? : String → Option α) (complaint : String → String) (ask : Nat → ChatRequest)
    (asked : Asked α (Nat × List ChatRequest)) : Prop where
  /-- It ends with the first final answer. -/
  of_isFinal : ∀ k, 0 < k → k ≤ config.maxAttempts →
    (∀ j, 0 < j → j < k → ¬ IsFinal usable? (answers j)) → IsFinal usable? (answers k) →
      asked.state.2.length = k ∧ asked.result = outcome usable? complaint (answers k)
  /-- If no answer is final, the last one counts. -/
  of_not_isFinal : (∀ j, 0 < j → j ≤ config.maxAttempts → ¬ IsFinal usable? (answers j)) →
    asked.state.2.length = config.maxAttempts
      ∧ asked.result = outcome usable? complaint (answers config.maxAttempts)
  /-- The requests are those of the attempts, in order. -/
  requests : asked.state.2 = (List.range' 1 asked.state.2.length).map ask
  /-- Each retry is waited for. -/
  waited : asked.waited.nanoseconds = waits config (asked.state.2.length - 1)

variable {config : ModelConfig} {answers : Nat → Except InferenceError String}
  {usable? : String → Option α} {complaint : String → String} {ask : Nat → ChatRequest}
  {accept : String → Except InferenceError α} {answer : Except InferenceError String}

theorem waits_succ (retries : Nat) :
  waits config (retries + 1) = waits config retries + (config.backoff (retries + 1)).nanoseconds
  := by
  rw [waits, List.range'_1_concat, List.map_append, List.sum_append, ← waits, Nat.add_comm 1]
  rfl

/-- A final answer settles the asking: what comes of it is no failure worth a retry. -/
theorem isFinal_iff (complaint : String → String) :
  IsFinal usable? answer
    ↔ ∀ e, outcome usable? complaint answer = .error e → e.isRetryable = false
  := by
  cases answer with
  | ok reply =>
      rw [IsFinal, outcome]
      cases usable? reply <;> simp [InferenceError.isRetryable]
  | error e => cases e <;> simp [IsFinal, outcome, InferenceError.isRetryable]

/-- An answer that is not final is a failure worth a retry. -/
theorem exists_outcome_eq_error (complaint : String → String) (h : ¬ IsFinal usable? answer) :
  ∃ e, outcome usable? complaint answer = .error e ∧ e.isRetryable = true
  := by
  rw [isFinal_iff complaint] at h
  push Not at h
  simpa using h

/-- There is a wait before every attempt but the first. -/
theorem waits_eq_add (number : Nat) :
  (if number + 1 = 1 then (⟨waits config (number - 1)⟩ : Duration)
    else Duration.add ⟨waits config (number - 1)⟩ (config.backoff (number + 1 - 1)))
    = ⟨waits config number⟩
  := by
  cases number with
  | zero => rfl
  | succ number =>
      rw [if_neg (by omega), waits_succ]
      rfl

section Attempts

variable (haccept : ∀ answer, Except.bind answer accept = outcome usable? complaint answer)
  (config : ModelConfig) (ask : Nat → ChatRequest) (left : Nat) (last : InferenceError)
  {number : Nat} (requests : List ChatRequest)

include haccept

/-- A final answer ends the asking. -/
theorem attempt_of_isFinal (h : IsFinal usable? (answers (number + 1))) :
  attempt config (Model.ofAnswers answers).recorded ask accept (left + 1) (number + 1) last
      ⟨waits config (number - 1)⟩ (number, requests)
    = { result := outcome usable? complaint (answers (number + 1))
        state := (number + 1, requests ++ [ask (number + 1)])
        waited := ⟨waits config number⟩ }
  := by
  rw [attempt, waits_eq_add]
  simp only [Model.recorded, Model.ofAnswers, haccept]
  rw [isFinal_iff complaint] at h
  cases hout : outcome usable? complaint (answers (number + 1)) with
  | ok value => rfl
  | error e => simp only [h e hout, Bool.false_eq_true, if_false]

/-- After another answer the next attempt follows. -/
theorem attempt_of_not_isFinal (h : ¬ IsFinal usable? (answers (number + 1))) :
  ∃ e, outcome usable? complaint (answers (number + 1)) = .error e
    ∧ attempt config (Model.ofAnswers answers).recorded ask accept (left + 1) (number + 1) last
        ⟨waits config (number - 1)⟩ (number, requests)
      = attempt config (Model.ofAnswers answers).recorded ask accept left (number + 2) e
        ⟨waits config number⟩ (number + 1, requests ++ [ask (number + 1)])
  := by
  obtain ⟨e, hout, he⟩ := exists_outcome_eq_error complaint h
  use e, hout
  rw [attempt, waits_eq_add]
  simp only [Model.recorded, Model.ofAnswers, haccept, hout, he, if_true]

/-- As long as no answer is final, attempt follows attempt.  The failure to report is that of the
last answer. -/
theorem attempt_of_forall_not_isFinal (k : Nat)
    (h : ∀ j, 0 < j → j ≤ k → ¬ IsFinal usable? (answers j)) :
  ∃ e, (0 < k → outcome usable? complaint (answers k) = .error e)
    ∧ attempt config (Model.ofAnswers answers).recorded ask accept (left + k) 1 last ⟨0⟩ (0, [])
      = attempt config (Model.ofAnswers answers).recorded ask accept left (k + 1) e
        ⟨waits config (k - 1)⟩ (k, (List.range' 1 k).map ask)
  := by
  induction k generalizing left with
  | zero =>
      use last
      constructor
      · intro hk
        omega
      · rfl
  | succ k ih =>
      obtain ⟨e, -, heq⟩ := ih (left + 1) fun j hj hjk => h j hj (by omega)
      obtain ⟨e', hout, hstep⟩ := attempt_of_not_isFinal haccept config ask left e
        ((List.range' 1 k).map ask) (h (k + 1) (by omega) le_rfl)
      use e', fun _ => hout
      rw [show left + (k + 1) = left + 1 + k by omega, heq, hstep, List.range'_1_concat,
        List.map_append, Nat.add_comm 1 k]
      rfl

/-- The asking that the first `k` answers settle. -/
theorem run_of_isFinal {k : Nat} (hk : k < config.maxAttempts)
    (h : ∀ j, 0 < j → j ≤ k → ¬ IsFinal usable? (answers j))
    (hfinal : IsFinal usable? (answers (k + 1))) :
  run config (Model.ofAnswers answers).recorded ask accept (0, [])
    = { result := outcome usable? complaint (answers (k + 1))
        state := (k + 1, (List.range' 1 (k + 1)).map ask)
        waited := ⟨waits config k⟩ }
  := by
  obtain ⟨left, hleft⟩ : ∃ left, config.maxAttempts = left + 1 + k :=
    ⟨config.maxAttempts - (k + 1), by omega⟩
  obtain ⟨e, -, heq⟩ := attempt_of_forall_not_isFinal haccept config ask (left + 1)
    (.transient "No inference attempts made") k h
  rw [run, hleft, heq, attempt_of_isFinal haccept config ask left e _ hfinal, List.range'_1_concat, List.map_append,
    Nat.add_comm 1 k]
  rfl

/-- The asking in which no answer is final. -/
theorem run_of_forall_not_isFinal (hn : 0 < config.maxAttempts)
    (h : ∀ j, 0 < j → j ≤ config.maxAttempts → ¬ IsFinal usable? (answers j)) :
  run config (Model.ofAnswers answers).recorded ask accept (0, [])
    = { result := outcome usable? complaint (answers config.maxAttempts)
        state := (config.maxAttempts, (List.range' 1 config.maxAttempts).map ask)
        waited := ⟨waits config (config.maxAttempts - 1)⟩ }
  := by
  obtain ⟨e, hout, heq⟩ := attempt_of_forall_not_isFinal haccept config ask 0
    (.transient "No inference attempts made") config.maxAttempts h
  rw [Nat.zero_add] at heq
  rw [run, heq, attempt, hout hn]

/-- Asking ends after as many answers as it takes. -/
theorem exists_run_eq (hn : 0 < config.maxAttempts) :
  ∃ k, 0 < k ∧ k ≤ config.maxAttempts
    ∧ (∀ j, 0 < j → j < k → ¬ IsFinal usable? (answers j))
    ∧ (IsFinal usable? (answers k) ∨ k = config.maxAttempts)
    ∧ run config (Model.ofAnswers answers).recorded ask accept (0, [])
      = { result := outcome usable? complaint (answers k)
          state := (k, (List.range' 1 k).map ask)
          waited := ⟨waits config (k - 1)⟩ }
  := by
  classical
  by_cases h : ∃ k, k < config.maxAttempts ∧ IsFinal usable? (answers (k + 1))
  · have hbefore : ∀ j, 0 < j → j ≤ Nat.find h → ¬ IsFinal usable? (answers j) := by
      intro j hj hjk hfinal
      have hlt := (Nat.find_spec h).1
      apply Nat.find_min h (m := j - 1) (by omega)
      rw [Nat.sub_add_cancel hj]
      use by omega, hfinal
    obtain ⟨hlt, hfinal⟩ := Nat.find_spec h
    use Nat.find h + 1, by omega, hlt, fun j hj hjk => hbefore j hj (by omega), .inl hfinal
    apply run_of_isFinal haccept config ask hlt hbefore hfinal
  · have hnone : ∀ j, 0 < j → j ≤ config.maxAttempts → ¬ IsFinal usable? (answers j) := by
      intro j hj hjn hfinal
      apply h
      use j - 1, by omega
      rwa [Nat.sub_add_cancel hj]
    use config.maxAttempts, hn, le_rfl, fun j hj hjk => hnone j hj hjk.le, .inr rfl
    apply run_of_forall_not_isFinal haccept config ask hn hnone

/-- Asking goes by the answers, whatever is asked and accepted. -/
theorem goesBy_run (hn : 0 < config.maxAttempts) :
  GoesBy config answers usable? complaint ask
    (run config (Model.ofAnswers answers).recorded ask accept (0, []))
  := by
  obtain ⟨k, hk, hkn, hbefore, hend, heq⟩ := exists_run_eq haccept config ask hn
  rw [heq]
  constructor
  case of_isFinal =>
      intro k' hk' hkn' hbefore' hfinal'
      -- the first final answer is where the asking ended
      obtain rfl : k' = k := by
        rcases Nat.lt_trichotomy k' k with hlt | rfl | hlt
        · exact absurd hfinal' (hbefore k' hk' hlt)
        · rfl
        · cases hend with
          | inl hfinal => exact absurd hfinal (hbefore' k hk hlt)
          | inr hmax => omega
      simp
  case of_not_isFinal =>
      intro hnone
      obtain rfl : k = config.maxAttempts := by
        cases hend with
        | inl hfinal => exact absurd hfinal (hnone k hk hkn)
        | inr hmax => exact hmax
      simp
  case requests => simp
  case waited => simp

end Attempts

/-- Asking for an object and asking for a text follow the same rule.  Any object is a usable reply
to the one, any text that is not blank to the other.  Every request after the first one for an object
ends with the reminder; requests for a text are all the same. -/
theorem goesBy_object_text (hn : 0 < config.maxAttempts) (system user : String) :
  GoesBy config answers (fun reply => Reply.objectIn? reply.toList)
      (fun reply => "Reply is not a JSON object: " ++ Reply.preview 120 reply)
      (fun number => request config true system
        (if number = 1 then user else user ++ "\n\n" ++ reminder))
      (object config (Model.ofAnswers answers).recorded system user (0, []))
    ∧ GoesBy config answers
        (fun reply => if Text.isBlankText reply.toList then none else some reply)
        (fun _ => "Empty reply")
        (fun _ => request config false system user)
        (text config (Model.ofAnswers answers).recorded system user (0, []))
  := by
  constructor
  · apply goesBy_run _ config _ hn
    intro answer
    cases answer with
    | error e => rfl
    | ok reply =>
        simp only [outcome, Except.bind, acceptObject]
        cases Reply.objectIn? reply.toList <;> rfl
  · apply goesBy_run _ config _ hn
    intro answer
    cases answer with
    | error e => rfl
    | ok reply =>
        simp only [outcome, Except.bind, acceptText]
        split <;> rfl

/-- A blank reply and then a text: two requests, and one wait. -/
theorem goesBy_object_text_blankThenText :
  0 < (ModelConfig.ofModel "" "m").maxAttempts
    ∧ (text (ModelConfig.ofModel "" "m")
        (Model.ofAnswers fun number => if number = 1 then .ok " " else .ok "yes").recorded
        "" "?" (0, [])).result = .ok "yes"
  := by
  use by decide
  have h := (@goesBy_object_text (ModelConfig.ofModel "" "m")
    (fun number => if number = 1 then .ok " " else .ok "yes") (by decide) "" "?").2
  have hresult := (h.of_isFinal 2 (by decide) (by decide) (by
    intro j hj hj2
    obtain rfl : j = 1 := by omega
    simp [IsFinal, Text.isBlankText, Text.isBlank]) (by
    simp [IsFinal, Text.isBlankText, Text.isBlank])).2
  rw [hresult]
  rfl

end Scrutiny.Inference
