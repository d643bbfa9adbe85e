import Scrutiny.Proofs.Concurrency.Owed
import Scrutiny.Proofs.Schedule.Exclusion
import Scrutiny.Review.Release

/-!
# Releases as steps

In every state that interleaved jobs can reach, the locks and the permits agree with the phases of the
jobs, but for what the jobs owe.
-/

namespace Scrutiny

variable {μ α : Type}

namespace Interleaving

open Schedule

/-! ### The state after some work -/

/-- What a job owes after it has come from one phase to another. -/
def debts (job : Job μ α) (phase phase' : JobPhase α) : List Resource :=
  (job.claims phase).filter (· ∉ job.claims phase')

/-- The state after a move of a job. -/
def after (state : Interleaving μ α) (i : Nat) (job : Job μ α) (phase : JobPhase α) (world : World μ)
    (phase' : JobPhase α) : Interleaving μ α :=
  let next := state.schedule.after i job phase world phase'
  { schedule :=
      { next with
        writers := if .writer ∈ debts job phase phase' then state.schedule.writers else next.writers
        indexes := if .index ∈ debts job phase phase' then state.schedule.indexes else next.indexes
        permits := if .permit ∈ debts job phase phase' then state.schedule.permits else next.permits }
    owed := state.owed ++ (debts job phase phase').map (i, ·) }

variable {session : Session μ} {state next : Interleaving μ α} {i j : Nat} {job : Job μ α}
  {phase phase' : JobPhase α} {world : World μ} {resource : Resource}

theorem claims_eq {schedule : Schedule μ α} (hjob : schedule.jobs[i]? = some (job, phase)) :
  schedule.claims i = job.claims phase
  := by
  rw [Schedule.claims, hjob]

/-- The pieces of work are the moves of the jobs that need not wait. -/
theorem work?_eq_some_iff :
  state.work? session i = some next
    ↔ ∃ job phase, state.schedule.jobs[i]? = some (job, phase) ∧ ∃ world phase',
      Move session state.schedule.world job phase world phase' ∧ state.schedule.MayEnter i phase'
        ∧ state.after i job phase world phase' = next
  := by
  have hwork {job : Job μ α} {phase : JobPhase α} {world : World μ} {phase' : JobPhase α}
      (hjob : state.schedule.jobs[i]? = some (job, phase)) :
      (state.schedule.claims i).filter (· ∉ (state.schedule.after i job phase world phase').claims i)
        = debts job phase phase' := by
    have hself : (state.schedule.after i job phase world phase').jobs[i]? = some (job, phase') := by
      rw [Schedule.after, getElem?_withPhase hjob, if_pos rfl]
    rw [claims_eq hjob, claims_eq hself, debts]
  rw [work?, Option.map_eq_some_iff]
  constructor
  · rintro ⟨later, hstep, rfl⟩
    obtain ⟨job, phase, hjob, world, phase', hmove, hmay, rfl⟩ := step?_eq_some_iff.mp hstep
    use job, phase, hjob, world, phase', hmove, hmay
    rw [hwork hjob]
    rfl
  · rintro ⟨job, phase, hjob, world, phase', hmove, hmay, rfl⟩
    use state.schedule.after i job phase world phase'
    use step?_eq_some_iff.mpr ⟨job, phase, hjob, world, phase', hmove, hmay, rfl⟩
    rw [hwork hjob]
    rfl

/-! ### What the state says -/

/-- Whether a job owes something. -/
def Owes (state : Interleaving μ α) (resource : Resource) (i : Nat) : Prop :=
  (i, resource) ∈ state.owed

/-- Whether a job is in a phase in which it asks for a permit. -/
def Asks (state : Interleaving μ α) (i : Nat) : Prop :=
  ∃ pair ∈ state.schedule.jobs[i]?, pair.2.asksPermit

/-- Whether a job is in the phase in which it asks the model. -/
def AsksModel (state : Interleaving μ α) (i : Nat) : Prop :=
  ∃ job, state.schedule.jobs[i]? = some (job, .asking)

/-- The share that a job should have in the locks of the fingerprints. -/
def writerShareAt? (state : Interleaving μ α) (i : Nat) : Option (Fingerprint × Bool) :=
  (state.schedule.jobs[i]?).bind writerShare?

/-- The share that a job should have in the locks of the indexes. -/
def indexShareAt? (state : Interleaving μ α) (i : Nat) : Option (String × Bool) :=
  (state.schedule.jobs[i]?).bind indexShare?

/-- The phases of the jobs agree with the locks and the permits, but for what is owed. -/
structure Sound (session : Session μ) (state : Interleaving μ α) : Prop where
  writers : Agrees state.schedule.writers (state.Owes .writer) state.writerShareAt?
  indexes : Agrees state.schedule.indexes (state.Owes .index) state.indexShareAt?
  permits : AgreesPermits state.schedule.permits (state.Owes .permit) state.Asks state.AsksModel
  limit_eq : state.schedule.permits.limit = session.limit
  mem_finished : ∀ i, i ∈ state.schedule.finished ↔ ∃ pair ∈ state.schedule.jobs[i]?, pair.2.isDone
  of_invalidation : ∀ (i : Nat) (chunkId : String) (phase : JobPhase α),
    state.schedule.jobs[i]? = some (.invalidation chunkId, phase) → phase.isOfReview = false
  nodup : state.owed.Nodup
  lt_of_owes : ∀ resource i, state.Owes resource i → i < state.schedule.jobs.length

/-- While nobody owes anything, the jobs are as in a schedule. -/
theorem Sound.sound_schedule (h : state.Sound session) (hnone : state.owed = []) :
  state.schedule.Sound session
  := by
  have howes (resource : Resource) (i : Nat) : ¬ state.Owes resource i := by
    rw [Owes, hnone]
    apply List.not_mem_nil
  constructor
  · use h.writers.coherent
    intro i
    apply h.writers.share?_eq i (howes .writer i)
  · use h.indexes.coherent
    intro i
    apply h.indexes.share?_eq i (howes .index i)
  · use h.permits.coherent
    · intro i
      apply h.permits.mem_asked i (howes .permit i)
    · intro i job hjob
      apply h.permits.mem_held i ⟨job, hjob⟩
  · apply h.limit_eq
  · apply h.mem_finished
  · apply h.of_invalidation

theorem sound_of_schedule {schedule : Schedule μ α} (h : schedule.Sound session) :
  (Interleaving.mk schedule []).Sound session
  := by
  have howes (resource : Resource) (i : Nat) : ¬ (Interleaving.mk schedule []).Owes resource i :=
    List.not_mem_nil
  constructor
  · use h.writers.coherent
    · intro i _
      apply h.writers.share?_eq i
    · intro i hi
      cases howes _ _ hi
  · use h.indexes.coherent
    · intro i _
      apply h.indexes.share?_eq i
    · intro i hi
      cases howes _ _ hi
  · use h.permits.coherent
    · intro i _
      apply h.permits.mem_asked i
    · rintro i ⟨job, hjob⟩
      apply h.permits.mem_held i job hjob
    · intro i hi
      cases howes _ _ hi
    · rintro i ⟨job, hjob⟩
      use (job, .asking), hjob
      rfl
  · apply h.limit_eq
  · apply h.mem_finished
  · apply h.of_invalidation
  · apply List.nodup_nil
  · intro resource i hi
    cases howes _ _ hi

/-! ### What a turn keeps -/

/-- A turn of a job changes neither the phases of the others nor what they owe. -/
structure SparesOthers (state next : Interleaving μ α) (i : Nat) : Prop where
  getElem?_eq : ∀ j, j ≠ i → next.schedule.jobs[j]? = state.schedule.jobs[j]?
  owes_iff : ∀ resource j, j ≠ i → (next.Owes resource j ↔ state.Owes resource j)

namespace SparesOthers

variable (h : SparesOthers state next i)

include h

theorem writers :
  ∀ j, j ≠ i → (next.Owes .writer j ↔ state.Owes .writer j)
    ∧ next.writerShareAt? j = state.writerShareAt? j
  := by
  intro j hne
  use h.owes_iff .writer j hne
  rw [writerShareAt?, h.getElem?_eq j hne, writerShareAt?]

theorem indexes :
  ∀ j, j ≠ i → (next.Owes .index j ↔ state.Owes .index j)
    ∧ next.indexShareAt? j = state.indexShareAt? j
  := by
  intro j hne
  use h.owes_iff .index j hne
  rw [indexShareAt?, h.getElem?_eq j hne, indexShareAt?]

theorem permits :
  ∀ j, j ≠ i → (next.Owes .permit j ↔ state.Owes .permit j) ∧ (next.Asks j ↔ state.Asks j)
    ∧ (next.AsksModel j ↔ state.AsksModel j)
  := by
  intro j hne
  use h.owes_iff .permit j hne
  rw [Asks, AsksModel, h.getElem?_eq j hne, Asks, AsksModel]
  exact ⟨Iff.rfl, Iff.rfl⟩

end SparesOthers

/-! ### Work -/

theorem writerShare?_eq_none_iff :
  writerShare? (job, phase) = none ↔ .writer ∉ job.claims phase
  := by
  cases job with
  | review review => cases phase <;> simp [Job.claims, writerShare?, JobPhase.writerHolds?]
  | invalidation chunkId => cases phase <;> simp [Job.claims, writerShare?]

theorem indexShare?_eq_none_iff :
  indexShare? (job, phase) = none ↔ .index ∉ job.claims phase
  := by
  cases job <;> cases phase <;> simp [Job.claims, indexShare?, JobPhase.indexHolds?]

theorem asksPermit_of_mem_claims (h : .permit ∈ job.claims phase) :
  phase.asksPermit
  := by
  cases job <;> cases phase <;> first | rfl | simp [Job.claims] at h

theorem asksPermit_eq_false (h : .permit ∉ job.claims phase)
    (hphase : ∀ chunkId, job = .invalidation chunkId → phase.isOfReview = false) :
  phase.asksPermit = false
  := by
  cases job with
  | review review => cases phase <;> first | rfl | simp [Job.claims] at h
  | invalidation chunkId =>
      have := hphase chunkId rfl
      cases phase <;> first | rfl | cases this

theorem mem_debts : resource ∈ debts job phase phase'
    ↔ resource ∈ job.claims phase ∧ resource ∉ job.claims phase'
  := by
  rw [debts, List.mem_filter, decide_eq_true_iff]

theorem owes_append {debts : List Resource} {schedule : Schedule μ α} :
  (Interleaving.mk schedule (state.owed ++ debts.map (i, ·))).Owes resource j
    ↔ state.Owes resource j ∨ j = i ∧ resource ∈ debts
  := by
  rw [Owes, Owes, List.mem_append, List.mem_map]
  apply or_congr_right
  constructor
  · rintro ⟨other, hmem, hpair⟩
    obtain ⟨rfl, rfl⟩ := Prod.mk.inj hpair
    use rfl
  · rintro ⟨rfl, hmem⟩
    use resource

theorem nodup_claims (job : Job μ α) (phase : JobPhase α) :
  (job.claims phase).Nodup
  := by
  cases job <;> cases phase <;> simp [Job.claims]

theorem nodup_owed {debts : List Resource} (h : state.owed.Nodup)
    (hfree : ∀ resource ∈ debts, ¬ state.Owes resource i) (hdebts : debts.Nodup) :
  (state.owed ++ debts.map (i, ·)).Nodup
  := by
  apply List.Nodup.append h
  · apply hdebts.map
    intro resource other heq
    exact (Prod.mk.inj heq).2
  · intro pair hold hnew
    obtain ⟨resource, hmem, rfl⟩ := List.mem_map.mp hnew
    apply hfree resource hmem hold

/-- Only jobs owe something. -/
theorem lt_length_of_owes {debts : List Resource} {schedule : Schedule μ α}
    (h : ∀ resource j, state.Owes resource j → j < state.schedule.jobs.length)
    (hjob : state.schedule.jobs[i]? = some (job, phase))
    (hlength : schedule.jobs.length = state.schedule.jobs.length)
    (howes : (Interleaving.mk schedule (state.owed ++ debts.map (i, ·))).Owes resource j) :
  j < schedule.jobs.length
  := by
  rw [hlength]
  rcases owes_append.mp howes with hold | ⟨rfl, -⟩
  · apply h resource j hold
  · exact (List.getElem?_eq_some_iff.mp hjob).1

theorem sparesOthers_after (hjob : state.schedule.jobs[i]? = some (job, phase)) (world : World μ)
    (phase' : JobPhase α) :
  SparesOthers state (state.after i job phase world phase') i
  := by
  constructor
  · intro j hne
    apply (getElem?_withPhase hjob phase' j).trans
    rw [if_neg hne]
  · intro resource j hne
    apply owes_append.trans
    simp [hne]

section

variable (h : state.Sound session) (hfree : ∀ resource, ¬ state.Owes resource i)
  (hjob : state.schedule.jobs[i]? = some (job, phase))
  (hmove : Move session state.schedule.world job phase world phase')

include hfree in
theorem owes_after_self (world : World μ) :
  (state.after i job phase world phase').Owes resource i ↔ resource ∈ debts job phase phase'
  := by
  apply owes_append.trans
  simp [hfree resource]

include h hfree hjob hmove

theorem Sound.writers_after (hmay : state.schedule.MayEnter i phase') :
  Agrees (state.after i job phase world phase').schedule.writers
    ((state.after i job phase world phase').Owes .writer)
    (state.after i job phase world phase').writerShareAt?
  := by
  have hothers := (sparesOthers_after hjob world phase').writers
  have hbefore : state.writerShareAt? i = writerShare? (job, phase) := by
    rw [writerShareAt?, hjob, Option.bind_some]
  have hafter : (state.after i job phase world phase').writerShareAt? i
      = writerShare? (job, phase') := by
    apply (congrArg (·.bind writerShare?) (getElem?_withPhase hjob phase' i)).trans
    rw [if_pos rfl, Option.bind_some]
  by_cases hdebt : .writer ∈ debts job phase phase'
  · have hsame : (state.after i job phase world phase').schedule.writers = state.schedule.writers :=
      if_pos hdebt
    rw [hsame]
    apply h.writers.owe hothers ((owes_after_self hfree world).mpr hdebt)
    rw [hafter, writerShare?_eq_none_iff.mpr (mem_debts.mp hdebt).2]
  · have hnext : (state.after i job phase world phase').schedule.writers
        = writersAfter state.schedule.writers i job phase' := if_neg hdebt
    have hnot := mt (owes_after_self hfree world).mp hdebt
    rw [hnext]
    cases hmove with
    | ask => exact h.writers.ask hothers (hfree _) hnot hbefore hafter
    | take => exact h.writers.grant hothers (hfree _) hnot hmay hbefore hafter
    | miss | permit | usable | kept | askIndex =>
        exact h.writers.keep hothers (hfree _) hnot (hafter.trans hbefore.symm)
    | takeIndex => cases job <;> exact h.writers.keep hothers (hfree _) hnot (hafter.trans hbefore.symm)
    | _ => exact h.writers.leave hothers hnot hafter

theorem Sound.indexes_after (hmay : state.schedule.MayEnter i phase') :
  Agrees (state.after i job phase world phase').schedule.indexes
    ((state.after i job phase world phase').Owes .index)
    (state.after i job phase world phase').indexShareAt?
  := by
  have hothers := (sparesOthers_after hjob world phase').indexes
  have hbefore : state.indexShareAt? i = indexShare? (job, phase) := by
    rw [indexShareAt?, hjob, Option.bind_some]
  have hafter : (state.after i job phase world phase').indexShareAt? i
      = indexShare? (job, phase') := by
    apply (congrArg (·.bind indexShare?) (getElem?_withPhase hjob phase' i)).trans
    rw [if_pos rfl, Option.bind_some]
  by_cases hdebt : .index ∈ debts job phase phase'
  · have hsame : (state.after i job phase world phase').schedule.indexes = state.schedule.indexes :=
      if_pos hdebt
    rw [hsame]
    apply h.indexes.owe hothers ((owes_after_self hfree world).mpr hdebt)
    rw [hafter, indexShare?_eq_none_iff.mpr (mem_debts.mp hdebt).2]
  · have hnext : (state.after i job phase world phase').schedule.indexes
        = indexesAfter state.schedule.indexes i job phase' := if_neg hdebt
    have hnot := mt (owes_after_self hfree world).mp hdebt
    rw [hnext]
    cases hmove with
    | ask | take | miss | permit | usable =>
        exact h.indexes.keep hothers (hfree _) hnot (hafter.trans hbefore.symm)
    | kept | askIndex => exact h.indexes.ask hothers (hfree _) hnot hbefore hafter
    | takeIndex => exact h.indexes.grant hothers (hfree _) hnot hmay hbefore hafter
    | _ => exact h.indexes.leave hothers hnot hafter

theorem Sound.permits_after (hmay : state.schedule.MayEnter i phase') :
  AgreesPermits (state.after i job phase world phase').schedule.permits
    ((state.after i job phase world phase').Owes .permit)
    (state.after i job phase world phase').Asks (state.after i job phase world phase').AsksModel
  := by
  have hothers := (sparesOthers_after hjob world phase').permits
  have hself : (withPhase state.schedule.jobs i phase')[i]? = some (job, phase') := by
    rw [getElem?_withPhase hjob, if_pos rfl]
  have hbefore : state.Asks i ↔ phase.asksPermit := by
    rw [Asks, hjob]
    simp
  have hafter : (state.after i job phase world phase').Asks i ↔ phase'.asksPermit := by
    change (∃ pair ∈ (withPhase state.schedule.jobs i phase')[i]?, _) ↔ _
    rw [hself]
    simp
  have hmodel : (state.after i job phase world phase').AsksModel i → phase' = .asking := by
    rintro ⟨other, hother⟩
    exact (Prod.mk.inj (Option.some.inj (hself.symm.trans hother))).2
  by_cases hdebt : .permit ∈ debts job phase phase'
  · have hsame : (state.after i job phase world phase').schedule.permits = state.schedule.permits :=
      if_pos hdebt
    have hphase' := asksPermit_eq_false (mem_debts.mp hdebt).2 (isOfReview_of_move hmove)
    rw [hsame]
    apply h.permits.owe hothers _ _ ((owes_after_self hfree world).mpr hdebt)
    · rw [hafter, hphase']
      simp
    · intro hasking
      rw [hmodel hasking] at hphase'
      cases hphase'
  · have hnext : (state.after i job phase world phase').schedule.permits
        = permitsAfter state.schedule.permits i phase phase' := if_neg hdebt
    have hnot := mt (owes_after_self hfree world).mp hdebt
    rw [hnext]
    have hkeep (hsame : phase'.asksPermit = phase.asksPermit)
        (hasking : phase' = .asking → i ∈ state.schedule.permits.held) :
        AgreesPermits state.schedule.permits ((state.after i job phase world phase').Owes .permit)
          (state.after i job phase world phase').Asks
          (state.after i job phase world phase').AsksModel := by
      apply h.permits.keep hothers (hfree _) hnot
      · rw [hafter, hbefore, hsame]
      · intro hi
        have heq := hmodel hi
        use hasking heq
        rw [hafter, heq]
        rfl
    cases hmove with
    | miss =>
        apply h.permits.acquire hothers (hfree _) _ (hafter.mpr rfl) _ hnot
        · rw [hbefore]
          simp [JobPhase.asksPermit]
        · intro hi
          cases hmodel hi
    | permit => exact hkeep rfl fun _ => hmay
    | usable | useless | failure | fatal => exact (hdebt (mem_debts.mpr (by simp [Job.claims]))).elim
    | _ => exact hkeep rfl fun heq => by cases heq

theorem Sound.sound_after (hmay : state.schedule.MayEnter i phase') :
  (state.after i job phase world phase').Sound session
  := by
  constructor
  · apply h.writers_after hfree hjob hmove hmay
  · apply h.indexes_after hfree hjob hmove hmay
  · apply h.permits_after hfree hjob hmove hmay
  · rw [← h.limit_eq]
    by_cases hdebt : .permit ∈ debts job phase phase'
    · exact congrArg Permits.limit (if_pos hdebt)
    · apply (congrArg Permits.limit (if_neg hdebt)).trans
      cases hmove <;> simp [Schedule.after, permitsAfter]
  · apply mem_finishedAfter h.mem_finished hjob hmove.isDone_eq_false
  · apply isOfReview_withPhase h.of_invalidation hjob (isOfReview_of_move hmove)
  · apply nodup_owed h.nodup
    · intro resource _
      apply hfree resource
    · apply List.Nodup.filter _ (nodup_claims job phase)
  · intro resource j hj
    apply lt_length_of_owes h.lt_of_owes hjob _ hj
    apply List.length_modify

end

/-! ### Releases -/

theorem owes_repaid (h : state.owed.Nodup) {other : Resource} :
  (state.repaid i resource).Owes other j ↔ (j, other) ≠ (i, resource) ∧ state.Owes other j
  := h.mem_erase_iff

/-- What a job owes after it has given back something else. -/
theorem owes_repaid_of_ne (h : state.owed.Nodup) {other : Resource} (hne : other ≠ resource) (j : Nat) :
  (state.repaid i resource).Owes other j ↔ state.Owes other j
  := by
  rw [owes_repaid h]
  simp [hne]

theorem not_owes_repaid (h : state.owed.Nodup) (i : Nat) (resource : Resource) :
  ¬ (state.repaid i resource).Owes resource i
  := by
  rw [owes_repaid h]
  simp

theorem jobs_released (schedule : Schedule μ α) (i : Nat) (resource : Resource) :
  (released schedule i resource).jobs = schedule.jobs
  := by
  cases resource <;> rfl

theorem sparesOthers_repaid (h : state.owed.Nodup) (i : Nat) (resource : Resource) :
  SparesOthers state (state.repaid i resource) i
  := by
  constructor
  · intro j _
    rw [repaid, jobs_released]
  · intro other j hne
    rw [owes_repaid h]
    simp [hne]

theorem Sound.sound_repaid (h : state.Sound session) (howes : state.Owes resource i) :
  (state.repaid i resource).Sound session
  := by
  have hothers := sparesOthers_repaid h.nodup i resource
  have hnot := not_owes_repaid h.nodup i resource
  have hsame {other : Resource} (hne : other ≠ resource) :
      (state.repaid i resource).Owes other = state.Owes other := by
    funext j
    exact propext (owes_repaid_of_ne h.nodup hne j)
  constructor
  · cases resource with
    | writer => exact h.writers.leave hothers.writers hnot (h.writers.share_eq_none i howes)
    | _ =>
        rw [hsame (by decide)]
        exact h.writers
  · cases resource with
    | index => exact h.indexes.leave hothers.indexes hnot (h.indexes.share_eq_none i howes)
    | _ =>
        rw [hsame (by decide)]
        exact h.indexes
  · cases resource with
    | permit =>
        have hasks := h.permits.not_asks i howes
        exact h.permits.repay hothers.permits hasks (mt (h.permits.asks_of_holds i) hasks) hnot
    | _ =>
        rw [hsame (by decide)]
        exact h.permits
  · rw [← h.limit_eq]
    cases resource with
    | permit =>
        rw [repaid, released]
        dsimp only
        split
        · apply Permits.limit_release
        · rfl
    | _ => rfl
  · cases resource <;> exact h.mem_finished
  · rw [repaid, jobs_released]
    apply h.of_invalidation
  · apply h.nodup.erase
  · intro other j hj
    rw [repaid, jobs_released]
    apply h.lt_of_owes other j (List.mem_of_mem_erase hj)

/-! ### Abandoned jobs -/

theorem of_abandon? (h : state.abandon? i = some next) :
  ∃ job phase, state.schedule.jobs[i]? = some (job, phase) ∧ phase.isDone = false
    ∧ state.abandoned i job phase = next
  := by
  rw [abandon?] at h
  rcases hjob : state.schedule.jobs[i]? with _ | ⟨job, phase⟩
  · rw [hjob] at h
    cases h
  · rw [hjob] at h
    use job, phase, rfl
    cases phase with
    | done result => cases h
    | _ => exact ⟨rfl, Option.some.inj h⟩

section

variable (h : state.Sound session) (hjob : state.schedule.jobs[i]? = some (job, phase))

theorem owes_abandoned (howes : state.Owes resource i) :
  (state.abandoned i job phase).Owes resource i
  := owes_append.mpr (.inl howes)

include hjob

theorem sparesOthers_abandoned :
  SparesOthers state (state.abandoned i job phase) i
  := by
  constructor
  · intro j hne
    apply (getElem?_withPhase hjob (.done (.ok none)) j).trans
    rw [if_neg hne]
  · intro resource j hne
    apply owes_append.trans
    simp [hne]

theorem getElem?_abandoned :
  (state.abandoned i job phase).schedule.jobs[i]? = some (job, .done (.ok none))
  := by
  apply (getElem?_withPhase hjob (.done (.ok none)) i).trans
  rw [if_pos rfl]

include h

/-- A job may owe something from before, but nothing that it still needs. -/
theorem Sound.not_owes_of_mem_claims (hmem : resource ∈ job.claims phase) :
  ¬ state.Owes resource i
  := by
  intro howes
  cases resource with
  | writer =>
      have hnone := h.writers.share_eq_none i howes
      rw [writerShareAt?, hjob, Option.bind_some, writerShare?_eq_none_iff] at hnone
      exact hnone hmem
  | index =>
      have hnone := h.indexes.share_eq_none i howes
      rw [indexShareAt?, hjob, Option.bind_some, indexShare?_eq_none_iff] at hnone
      exact hnone hmem
  | permit =>
      apply h.permits.not_asks i howes
      use (job, phase), hjob
      exact asksPermit_of_mem_claims hmem

theorem Sound.sound_abandoned (hphase : phase.isDone = false) :
  (state.abandoned i job phase).Sound session
  := by
  have hothers := sparesOthers_abandoned hjob
  have hself := getElem?_abandoned hjob
  constructor
  · have hafter : (state.abandoned i job phase).writerShareAt? i = none := by
      rw [writerShareAt?, hself]
      cases job <;> rfl
    by_cases howes : (state.abandoned i job phase).Owes .writer i
    · exact h.writers.owe hothers.writers howes hafter
    · have hnot : .writer ∉ job.claims phase := fun hmem => howes (owes_append.mpr (.inr ⟨rfl, hmem⟩))
      apply h.writers.keep hothers.writers (mt owes_abandoned howes) howes
      rw [hafter, writerShareAt?, hjob, Option.bind_some, writerShare?_eq_none_iff.mpr hnot]
  · have hafter : (state.abandoned i job phase).indexShareAt? i = none := by
      rw [indexShareAt?, hself]
      rfl
    by_cases howes : (state.abandoned i job phase).Owes .index i
    · exact h.indexes.owe hothers.indexes howes hafter
    · have hnot : .index ∉ job.claims phase := fun hmem => howes (owes_append.mpr (.inr ⟨rfl, hmem⟩))
      apply h.indexes.keep hothers.indexes (mt owes_abandoned howes) howes
      rw [hafter, indexShareAt?, hjob, Option.bind_some, indexShare?_eq_none_iff.mpr hnot]
  · have hasks : ¬ (state.abandoned i job phase).Asks i := by
      rw [Asks, hself]
      simp [JobPhase.asksPermit]
    have hmodel : ¬ (state.abandoned i job phase).AsksModel i := by
      rw [AsksModel, hself]
      simp
    by_cases howes : (state.abandoned i job phase).Owes .permit i
    · exact h.permits.owe hothers.permits hasks hmodel howes
    · have hnot : .permit ∉ job.claims phase := fun hmem => howes (owes_append.mpr (.inr ⟨rfl, hmem⟩))
      have hnone := asksPermit_eq_false hnot fun chunkId hchunk =>
        h.of_invalidation i chunkId phase (by rw [← hchunk]; exact hjob)
      have hbefore : ¬ state.Asks i := by
        rw [Asks, hjob]
        simp [hnone]
      apply h.permits.keep hothers.permits (mt owes_abandoned howes) howes (iff_of_false hasks hbefore)
      intro hi
      contradiction
  · exact h.limit_eq
  · exact @mem_finishedAfter _ _ _ _ _ (.done (.ok none)) _ _ h.mem_finished hjob hphase
  · exact isOfReview_withPhase h.of_invalidation hjob fun _ _ => rfl
  · apply nodup_owed h.nodup
    · intro resource hmem
      apply h.not_owes_of_mem_claims hjob hmem
    · apply nodup_claims
  · intro resource j hj
    apply lt_length_of_owes h.lt_of_owes hjob _ hj
    apply List.length_modify

end

end Interleaving

end Scrutiny
