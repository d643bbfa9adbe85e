import Scrutiny.Proofs.Schedule.Unblocked

/-!
# The gauges of the permits

The gauge of the permits that are out is right in whatever order permits are asked for, granted, given
back and no longer waited for.  The gauge of the requests that wait counts every request that was ever
cancelled as well, so it is right as long as none is.
-/

namespace Scrutiny

namespace Permits

variable {ι : Type} {permits next : Permits ι} {cancelled : Nat}

/-- One gauge tells the permits that are out; the other one tells the requests that wait, and those that
were cancelled. -/
structure Gauges (permits : Permits ι) (cancelled : Nat) : Prop where
  inFlight_eq : permits.inFlight = permits.held.length
  waiters_eq : permits.waiters = permits.waiting.length + cancelled

theorem gauges_ofLimit (limit : Nat) :
  (ofLimit limit : Permits ι).Gauges 0
  := ⟨rfl, rfl⟩

theorem Gauges.ask (h : permits.Gauges cancelled) (id : ι) :
  (permits.ask id).Gauges cancelled
  := by
  constructor
  · apply h.inFlight_eq
  · dsimp only [Permits.ask]
    rw [List.length_append, List.length_singleton, h.waiters_eq]
    omega

theorem Gauges.grantAt? (h : permits.Gauges cancelled) {i : Nat} (hstep : permits.grantAt? i = some next) :
  next.Gauges cancelled
  := by
  obtain ⟨id, hid, hstep⟩ := Option.bind_eq_some_iff.mp hstep
  obtain ⟨-, hnext⟩ := Option.ite_none_right_eq_some.mp hstep
  obtain rfl := Option.some.inj hnext
  have hlt : i < permits.waiting.length := (List.getElem?_eq_some_iff.mp hid).1
  have hlength := List.length_eraseIdx_add_one hlt
  constructor
  · rw [List.length_append, List.length_singleton, h.inFlight_eq]
  · dsimp only
    rw [h.waiters_eq]
    omega

theorem Gauges.dropAt? (h : permits.Gauges cancelled) {i : Nat} (hstep : permits.dropAt? i = some next) :
  next.Gauges cancelled
  := by
  obtain ⟨hlt, hnext⟩ := Option.ite_none_right_eq_some.mp hstep
  obtain rfl := Option.some.inj hnext
  have hlength := List.length_eraseIdx_add_one hlt
  constructor
  · dsimp only
    rw [h.inFlight_eq]
    omega
  · apply h.waiters_eq

theorem Gauges.cancelAt? (h : permits.Gauges cancelled) {i : Nat}
    (hstep : permits.cancelAt? i = some next) :
  next.Gauges (cancelled + 1)
  := by
  obtain ⟨hlt, hnext⟩ := Option.ite_none_right_eq_some.mp hstep
  obtain rfl := Option.some.inj hnext
  have hlength := List.length_eraseIdx_add_one hlt
  constructor
  · apply h.inFlight_eq
  · dsimp only
    rw [h.waiters_eq]
    omega

theorem Gauges.step? (h : permits.Gauges cancelled) {step : Step ι} (hstep : permits.step? step = some next) :
  next.Gauges (cancelled + if step.isCancel then 1 else 0)
  := by
  cases step with
  | ask id =>
      obtain rfl := Option.some.inj hstep
      apply h.ask
  | grant i => apply h.grantAt? hstep
  | drop i => apply h.dropAt? hstep
  | cancel i => apply h.cancelAt? hstep

theorem Gauges.run? (h : permits.Gauges cancelled) {steps : List (Step ι)}
    (hrun : permits.run? steps = some next) :
  next.Gauges (cancelled + steps.countP Step.isCancel)
  := by
  induction steps generalizing permits cancelled with
  | nil =>
      obtain rfl : permits = next := Option.some.inj hrun
      apply h
  | cons step rest ih =>
      obtain ⟨middle, hstep, hrest⟩ := Option.bind_eq_some_iff.mp hrun
      have hlater := ih (h.step? hstep) hrest
      rwa [Nat.add_assoc, Nat.add_comm (if step.isCancel then 1 else 0), ← List.countP_cons] at hlater

/-- In every state that is reached, the one gauge is the number of permits that are out, and the other one
is the number of requests that wait and of requests that were cancelled. -/
theorem gauges_of_run? {limit : Nat} {steps : List (Step ι)}
    (h : (ofLimit limit).run? steps = some permits) :
  permits.inFlight = permits.held.length
    ∧ permits.waiters = permits.waiting.length + steps.countP Step.isCancel
  := by
  have hgauges := (gauges_ofLimit limit).run? h
  rw [Nat.zero_add] at hgauges
  exact ⟨hgauges.inFlight_eq, hgauges.waiters_eq⟩

/-- One permit for three requests, two of which are granted one after the other. -/
theorem gauges_of_run?_handedOn :
  ∃ permits, (ofLimit 1).run? [.ask 0, .grant 0, .ask 1, .ask 2, .drop 0, .grant 1] = some permits
    ∧ permits.held = [2] ∧ permits.waiting = [1]
    ∧ permits.inFlight = permits.held.length ∧ permits.waiters = permits.waiting.length + 0
  := by
  have hrun : (ofLimit 1).run? [.ask 0, .grant 0, .ask 1, .ask 2, .drop 0, .grant 1]
      = some ⟨1, [2], [1], 1, 1⟩ := rfl
  exact ⟨_, hrun, rfl, rfl, gauges_of_run? hrun⟩

/-- A request is cancelled while it waits.  When nobody holds a permit or waits for one any more, the gauge
still tells that somebody waits. -/
theorem not_waiters_eq_cancelled :
  ∃ permits, (ofLimit 1).run? [.ask 0, .grant 0, .ask 1, .cancel 0, .drop 0] = some permits
    ∧ permits.held = [] ∧ permits.waiting = [] ∧ permits.waiters = 1
  := ⟨⟨1, [], [], 0, 1⟩, rfl, rfl, rfl, rfl⟩

/-! ### Operations as steps -/

theorem run?_append (front back : List (Step ι)) (permits : Permits ι) :
  permits.run? (front ++ back) = (permits.run? front).bind (run? · back)
  := by
  induction front generalizing permits with
  | nil => rfl
  | cons step rest ih =>
      rw [List.cons_append, run?, run?, Option.bind_assoc]
      congr
      funext next
      apply ih

/-- Some steps lead from permits to others. -/
def Leads (permits next : Permits ι) : Prop :=
  ∃ steps, permits.run? steps = some next

theorem Leads.refl (permits : Permits ι) :
  permits.Leads permits
  := ⟨[], rfl⟩

theorem Leads.trans {middle : Permits ι} (h : permits.Leads middle) (h' : middle.Leads next) :
  permits.Leads next
  := by
  obtain ⟨front, hfront⟩ := h
  obtain ⟨back, hback⟩ := h'
  use front ++ back
  rw [run?_append, hfront, Option.bind_some, hback]

theorem leads_of_step? (step : Step ι) (h : permits.step? step = some next) :
  permits.Leads next
  := ⟨[step], by rw [run?, h, Option.bind_some, run?]⟩

theorem leads_grant (permits : Permits ι) :
  permits.Leads permits.grant
  := by
  rw [grant]
  split
  · rename_i id rest hwaiting
    split
    · rename_i hfree
      apply leads_of_step? (.grant 0)
      rw [step?, grantAt?, hwaiting, List.getElem?_cons_zero, Option.bind_eq_bind, Option.bind_some,
        if_pos hfree, List.eraseIdx_cons_zero]
    · apply Leads.refl
  · apply Leads.refl

theorem leads_acquire (permits : Permits ι) (id : ι) :
  permits.Leads (permits.acquire id)
  := (leads_of_step? (.ask id) rfl).trans (leads_grant _)

variable [DecidableEq ι]

theorem leads_release (permits : Permits ι) (id : ι) :
  permits.Leads (permits.release id)
  := by
  rw [release]
  split_ifs with hheld
  · apply Leads.trans _ (leads_grant _)
    apply leads_of_step? (.drop (permits.held.idxOf id))
    rw [step?, dropAt?, if_pos (List.idxOf_lt_length_of_mem hheld), List.erase_eq_eraseIdx_of_idxOf rfl]
  · apply Leads.refl

theorem leads_giveUp (permits : Permits ι) (id : ι) :
  permits.Leads (permits.giveUp id)
  := by
  by_cases hwaiting : id ∈ permits.waiting
  · apply leads_of_step? (.cancel (permits.waiting.idxOf id))
    rw [step?, cancelAt?, if_pos (List.idxOf_lt_length_of_mem hwaiting), giveUp,
      List.erase_eq_eraseIdx_of_idxOf rfl]
  · rw [giveUp, List.erase_of_not_mem hwaiting]
    apply Leads.refl

end Permits

/-! ### Tasks that run at the same time -/

namespace Interleaving

variable {μ α : Type} {session : Session μ} {state next : Interleaving μ α}

theorem leads_permitsAfter (permits : Permits Nat) (i : Nat) (phase phase' : JobPhase α) :
  permits.Leads (Schedule.permitsAfter permits i phase phase')
  := by
  rw [Schedule.permitsAfter.eq_def]
  split
  · apply Permits.leads_acquire
  · apply Permits.leads_release
  · apply Permits.Leads.refl

/-- A permit that a task owes is given back, or the task no longer waits for it. -/
theorem leads_released (schedule : Schedule μ α) (i : Nat) (resource : Resource) :
  schedule.permits.Leads (released schedule i resource).permits
  := by
  cases resource with
  | writer => apply Permits.Leads.refl
  | index => apply Permits.Leads.refl
  | permit =>
      dsimp only [released]
      split_ifs
      · apply Permits.leads_release
      · apply Permits.leads_giveUp

theorem leads_of_turn? {turn : Turn} (hturn : state.turn? session turn = some next) :
  state.schedule.permits.Leads next.schedule.permits
  := by
  cases turn with
  | step i =>
      rw [turn?, step?] at hturn
      split at hturn
      · obtain rfl := Option.some.inj hturn
        apply leads_released
      · obtain ⟨job, phase, hjob, world, phase', hmove, hmay, rfl⟩ := work?_eq_some_iff.mp hturn
        dsimp only [after, Schedule.after]
        split_ifs
        · apply Permits.Leads.refl
        · apply leads_permitsAfter
  | abandon i =>
      obtain ⟨job, phase, hjob, hphase, rfl⟩ := of_abandon? hturn
      apply Permits.Leads.refl

/-- Whatever tasks do, and whichever of them are abandoned, the gauge of the permits that are out is right,
and the other one counts at least those that wait. -/
theorem gauges_of_tasks {world : World μ} {tasks : List ReviewTask} {turns : List Turn}
    {state : Interleaving μ TaskResult}
    (hrun : (ofTasks session world tasks).run? session turns = some state) :
  state.schedule.permits.inFlight = state.schedule.permits.held.length
    ∧ state.schedule.permits.waiting.length ≤ state.schedule.permits.waiters
  := by
  have hleads : (Permits.ofLimit session.settings.concurrency).Leads state.schedule.permits := by
    apply of_run? (P := fun later =>
      (Permits.ofLimit session.settings.concurrency).Leads later.schedule.permits) _ _ hrun
    · intro turn middle later hmiddle hturn
      apply hmiddle.trans (leads_of_turn? hturn)
    · apply Permits.Leads.refl
  obtain ⟨steps, hsteps⟩ := hleads
  have hgauges := (Permits.gauges_ofLimit _).run? hsteps
  use hgauges.inFlight_eq
  rw [hgauges.waiters_eq]
  apply Nat.le_add_right

end Interleaving

end Scrutiny
