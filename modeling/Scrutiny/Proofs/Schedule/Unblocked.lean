import Scrutiny.Proofs.Review.Regular
import Scrutiny.Proofs.Schedule.Progress
import Scrutiny.Proofs.Schedule.Release

/-!
# Nobody waits forever

A job that owes something need not wait.  If nobody owes anything, the jobs are as in a schedule, where
some job can take a step.  So as long as some job has not come to its end, some job can take a step; and
only so many turns can be taken.
-/

namespace Scrutiny.Interleaving

open Schedule

variable {μ α : Type} {session : Session μ} {state next : Interleaving μ α} {i : Nat}

/-! ### Runs -/

theorem sound_of_step? (h : state.Sound session) (hstep : state.step? session i = some next) :
  next.Sound session
  := by
  rw [step?] at hstep
  split at hstep
  · rename_i j resource hfind
    obtain rfl := Option.some.inj hstep
    obtain rfl : j = i := by simpa using List.find?_some hfind
    apply h.sound_repaid (List.mem_of_find?_eq_some hfind)
  · rename_i hfind
    obtain ⟨job, phase, hjob, world, phase', hmove, hmay, rfl⟩ := work?_eq_some_iff.mp hstep
    have hfree (resource : Resource) : ¬ state.Owes resource i := by
      intro howes
      have := List.find?_eq_none.mp hfind (i, resource) howes
      simp at this
    apply h.sound_after hfree hjob hmove hmay

theorem sound_of_turn? (h : state.Sound session) {turn : Turn}
    (hturn : state.turn? session turn = some next) :
  next.Sound session
  := by
  cases turn with
  | step i => exact sound_of_step? h hturn
  | abandon i =>
      obtain ⟨job, phase, hjob, hphase, rfl⟩ := of_abandon? hturn
      exact h.sound_abandoned hjob hphase

/-- What each turn keeps, a run keeps. -/
theorem of_run? {P : Interleaving μ α → Prop}
    (hturn : ∀ turn state next, P state → state.turn? session turn = some next → P next)
    {turns : List Turn} (h : P state) (hrun : state.run? session turns = some next) :
  P next
  := by
  induction turns generalizing state with
  | nil =>
      obtain rfl : state = next := Option.some.inj hrun
      apply h
  | cons turn rest ih =>
      obtain ⟨middle, hmiddle, hrest⟩ := Option.bind_eq_some_iff.mp hrun
      apply ih (hturn turn _ _ h hmiddle) hrest

theorem sound_of_run? (h : state.Sound session) {turns : List Turn}
    (hrun : state.run? session turns = some next) :
  next.Sound session
  := by
  apply of_run? (P := (Sound session ·)) _ h hrun
  intro turn state next hstate hturn
  apply sound_of_turn? hstate hturn

/-! ### Progress -/

/-- A job that owes something can take a step. -/
theorem exists_step?_of_owes {resource : Resource} (howes : state.Owes resource i) :
  ∃ next, state.step? session i = some next
  := by
  rw [step?]
  cases hfind : state.owed.find? (·.1 == i) with
  | some pair => exact ⟨_, rfl⟩
  | none =>
      have := List.find?_eq_none.mp hfind (i, resource) howes
      simp at this

/-- As long as a job has not come to its end, some job can take a step. -/
theorem Sound.exists_step? (h : state.Sound session) (hi : i < state.schedule.jobs.length)
    (hopen : ¬ state.HasEnded i) :
  ∃ j < state.schedule.jobs.length, ∃ next, state.step? session j = some next
  := by
  cases howed : state.owed with
  | cons pair rest =>
      have howes : state.Owes pair.2 pair.1 := by
        rw [Owes, howed]
        apply List.mem_cons_self
      use pair.1, h.lt_of_owes pair.2 pair.1 howes
      apply exists_step?_of_owes howes
  | nil =>
      have hjob := List.getElem?_eq_getElem hi
      have hdone : (state.schedule.jobs[i]).2.isDone = false := by
        rw [Bool.eq_false_iff]
        intro hdone
        apply hopen
        constructor
        · rw [resultOf?, hjob]
          rcases hpair : state.schedule.jobs[i] with ⟨job, phase⟩
          rw [hpair] at hdone
          cases phase with
          | done result => rfl
          | _ => cases hdone
        · intro resource
          rw [howed]
          apply List.not_mem_nil
      obtain ⟨j, later, hstep⟩ := (h.sound_schedule howed).exists_step? hjob hdone
      obtain ⟨job, phase, hother, -⟩ := step?_eq_some_iff.mp hstep
      use j, (List.getElem?_eq_some_iff.mp hother).1
      rw [step?, howed, List.find?_nil, work?, hstep]
      exact ⟨_, rfl⟩

theorem length_jobs_of_turn? {turn : Turn} (hturn : state.turn? session turn = some next) :
  next.schedule.jobs.length = state.schedule.jobs.length
  := by
  cases turn with
  | step i =>
      rw [turn?, step?] at hturn
      split at hturn
      · obtain rfl := Option.some.inj hturn
        rw [repaid, jobs_released]
      · obtain ⟨job, phase, hjob, world, phase', hmove, hmay, rfl⟩ := work?_eq_some_iff.mp hturn
        apply List.length_modify
  | abandon i =>
      obtain ⟨job, phase, hjob, hphase, rfl⟩ := of_abandon? hturn
      apply List.length_modify

/-- As long as some task has not come to its end, some task can take a step. -/
theorem exists_step?_of_tasks {world : World μ} {tasks : List ReviewTask} {turns : List Turn}
    {state : Interleaving μ TaskResult}
    (hrun : (ofTasks session world tasks).run? session turns = some state) (hi : i < tasks.length)
    (hopen : ¬ state.HasEnded i) :
  ∃ j < tasks.length, ∃ next, state.step? session j = some next
  := by
  have hlength : state.schedule.jobs.length = tasks.length := by
    apply of_run? (P := fun later => later.schedule.jobs.length = tasks.length) _ _ hrun
    · intro turn middle later hmiddle hturn
      rw [length_jobs_of_turn? hturn, hmiddle]
    · simp [ofTasks, Schedule.ofTasks, ofJobs]
  have hsound : state.Sound session :=
    sound_of_run? (sound_of_schedule (sound_ofJobs session world _)) hrun
  rw [← hlength] at hi ⊢
  apply hsound.exists_step? hi hopen

/-- A task waits for the lock of another one that was abandoned before it gave the lock back. -/
theorem exists_step?_of_tasks_quiet :
  ∃ state, (ofTasks quietSession (quietWorld .empty)
      (List.replicate 2 (.audit false quietChunk .security))).run? quietSession
        [.step 0, .step 0, .step 1, .abandon 0] = some state
    ∧ ¬ state.HasEnded 1 ∧ ∃ j < 2, ∃ next, state.step? quietSession j = some next
  := by
  obtain ⟨state, hrun, hresult⟩ : ∃ state, (ofTasks quietSession (quietWorld .empty)
      (List.replicate 2 (.audit false quietChunk .security))).run? quietSession
        [.step 0, .step 0, .step 1, .abandon 0] = some state
      ∧ state.schedule.resultOf? 1 = none := ⟨_, rfl, rfl⟩
  have hopen : ¬ state.HasEnded 1 := by
    rintro ⟨hsome, -⟩
    rw [hresult] at hsome
    cases hsome
  exact ⟨state, hrun, hopen, exists_step?_of_tasks hrun (by decide) hopen⟩

/-! ### The end -/

/-- The largest number of turns that can still be taken. -/
def remaining (state : Interleaving μ α) : Nat :=
  3 * state.schedule.remaining + state.owed.length

theorem length_claims_le (job : Job μ α) (phase : JobPhase α) :
  (job.claims phase).length ≤ 2
  := by
  cases job <;> cases phase <;> simp [Job.claims]

theorem remaining_lt_of_turn? {turn : Turn} (hturn : state.turn? session turn = some next) :
  next.remaining < state.remaining
  := by
  cases turn with
  | step i =>
      rw [turn?, step?] at hturn
      split at hturn
      · rename_i j resource hfind
        obtain rfl := Option.some.inj hturn
        obtain rfl : j = i := by simpa using List.find?_some hfind
        have hmem := List.mem_of_find?_eq_some hfind
        have hlength := List.length_erase_of_mem hmem
        have hpos := List.length_pos_of_mem hmem
        rw [remaining, remaining, repaid, Schedule.remaining, jobs_released, ← Schedule.remaining]
        dsimp only
        omega
      · obtain ⟨job, phase, hjob, world, phase', hmove, -, rfl⟩ := work?_eq_some_iff.mp hturn
        have hrank := sum_rank_withPhase_lt hjob hmove.rank_lt
        have hdebts : (debts job phase phase').length ≤ 2 :=
          (List.length_filter_le _ _).trans (length_claims_le job phase)
        change 3 * ((withPhase state.schedule.jobs i phase').map (·.2.rank)).sum
          + (state.owed ++ (debts job phase phase').map (i, ·)).length
            < 3 * (state.schedule.jobs.map (·.2.rank)).sum + state.owed.length
        rw [List.length_append, List.length_map]
        omega
  | abandon i =>
      obtain ⟨job, phase, hjob, hphase, rfl⟩ := of_abandon? hturn
      have hrank : ((withPhase state.schedule.jobs i (.done (.ok none))).map (·.2.rank)).sum
          < (state.schedule.jobs.map (·.2.rank)).sum := by
        apply sum_rank_withPhase_lt hjob
        cases phase with
        | done result => cases hphase
        | _ => exact Nat.succ_pos _
      have hclaims := length_claims_le job phase
      change 3 * ((withPhase state.schedule.jobs i (.done (.ok none))).map (·.2.rank)).sum
        + (state.owed ++ (job.claims phase).map (i, ·)).length
          < 3 * (state.schedule.jobs.map (·.2.rank)).sum + state.owed.length
      rw [List.length_append, List.length_map]
      omega

/-- No run goes on forever. -/
theorem length_le_of_run? {turns : List Turn} (hrun : state.run? session turns = some next) :
  turns.length + next.remaining ≤ state.remaining
  := by
  induction turns generalizing state with
  | nil =>
      obtain rfl : state = next := Option.some.inj hrun
      simp
  | cons turn rest ih =>
      obtain ⟨middle, hmiddle, hrest⟩ := Option.bind_eq_some_iff.mp hrun
      have hlt := remaining_lt_of_turn? hmiddle
      have hle := ih hrest
      rw [List.length_cons]
      omega

/-- Every run can be continued until all jobs have come to their end and owe nothing. -/
theorem Sound.exists_hasEnded (h : state.Sound session) :
  ∃ (order : List Nat) (last : _), state.run? session (order.map .step) = some last
    ∧ ∀ i < last.schedule.jobs.length, last.HasEnded i
  := by
  induction hcount : state.remaining using Nat.strongRecOn generalizing state with
  | ind count ih =>
      by_cases hover : ∀ i < state.schedule.jobs.length, state.HasEnded i
      · use [], state, rfl
      · push Not at hover
        obtain ⟨i, hi, hopen⟩ := hover
        obtain ⟨j, -, next, hstep⟩ := h.exists_step? hi hopen
        have hlt : next.remaining < count := by
          rw [← hcount]
          exact @remaining_lt_of_turn? _ _ _ _ _ (.step j) hstep
        obtain ⟨order, last, hrun, hlast⟩ := ih next.remaining hlt (sound_of_step? h hstep) rfl
        use j :: order, last
        constructor
        · rw [List.map_cons, run?, turn?, hstep]
          exact hrun
        · exact hlast

/-! ### Schedules as runs -/

/-- What a job owes is given back by as many steps of the job. -/
theorem run?_replicate_length (session : Session μ) (schedule : Schedule μ α) (i : Nat)
    (debts : List Resource) :
  (Interleaving.mk schedule (debts.map (i, ·))).run? session (List.replicate debts.length (.step i))
    = some ⟨debts.foldl (released · i) schedule, []⟩
  := by
  induction debts generalizing schedule with
  | nil => rfl
  | cons resource rest ih =>
      have hstep : (Interleaving.mk schedule ((resource :: rest).map (i, ·))).step? session i
          = some ⟨released schedule i resource, rest.map (i, ·)⟩ := by
        simp [step?, repaid]
      rw [List.length_cons, List.replicate_succ, run?, turn?, hstep, Option.bind_some, ih,
        List.foldl_cons]

theorem released_permit {schedule : Schedule μ α} (h : i ∈ schedule.permits.held) :
  released schedule i .permit = { schedule with permits := schedule.permits.release i }
  := by
  rw [released, if_pos h]

/-- The state after a move is that of a schedule as soon as what is owed is given back. -/
theorem foldl_released_debts {schedule : Schedule μ α} {job : Job μ α} {phase phase' : JobPhase α}
    {world : World μ} (hheld : phase = .asking → i ∈ schedule.permits.held)
    (hmove : Move session schedule.world job phase world phase') :
  (debts job phase phase').foldl (released · i) ((Interleaving.mk schedule []).after i job phase world
    phase').schedule = schedule.after i job phase world phase'
  := by
  have hpermit (rest : List Resource) (later : Schedule μ α)
      (hsame : later.permits = schedule.permits) (hphase : phase = .asking) :
      (.permit :: rest).foldl (released · i) later
        = rest.foldl (released · i) { later with permits := schedule.permits.release i } := by
    rw [List.foldl_cons, released_permit (by rw [hsame]; exact hheld hphase), hsame]
  cases hmove with
  | usable => exact hpermit [] _ rfl rfl
  | useless | failure | fatal => exact hpermit [.writer] _ rfl rfl
  | takeIndex => cases job <;> rfl
  | _ => rfl

/-- A step of a schedule is a piece of work, after which the job at once gives back what it owes. -/
theorem run?_of_step? {schedule later : Schedule μ α} (h : schedule.Sound session)
    (hstep : schedule.step? session i = some later) :
  ∃ count, (Interleaving.mk schedule []).run? session (List.replicate count (.step i))
    = some ⟨later, []⟩
  := by
  obtain ⟨job, phase, hjob, world, phase', hmove, hmay, rfl⟩ := step?_eq_some_iff.mp hstep
  have hwork : (Interleaving.mk schedule []).work? session i
      = some ((Interleaving.mk schedule []).after i job phase world phase') :=
    work?_eq_some_iff.mpr ⟨job, phase, hjob, world, phase', hmove, hmay, rfl⟩
  use (debts job phase phase').length + 1
  rw [List.replicate_succ, run?, turn?, step?, List.find?_nil]
  dsimp only
  rw [hwork, Option.bind_some]
  apply (run?_replicate_length session _ i (debts job phase phase')).trans
  apply congrArg fun last => some (Interleaving.mk last [])
  apply foldl_released_debts _ hmove
  intro hphase
  apply h.permits.mem_held i job
  rw [← hphase]
  exact hjob

end Scrutiny.Interleaving
