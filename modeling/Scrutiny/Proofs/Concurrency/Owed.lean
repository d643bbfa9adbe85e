import Scrutiny.Proofs.Concurrency.Locks
import Scrutiny.Proofs.Concurrency.Permits

/-!
# What is owed

Somebody who no longer needs a lock or a permit may still have it, and then owes it.  The locks and the
permits agree with what everybody should have, but for what is owed.
-/

namespace Scrutiny

/-! ### Locks -/

/-- The locks agree with the shares that the jobs should have in them, but for those who owe a lock,
who should have none. -/
structure Agrees {κ : Type} [DecidableEq κ] (locks : KeyedLocks Nat κ) (owes : Nat → Prop)
    (share : Nat → Option (κ × Bool)) : Prop where
  coherent : locks.Coherent
  share?_eq : ∀ i, ¬ owes i → locks.share? i = share i
  share_eq_none : ∀ i, owes i → share i = none

namespace Agrees

variable {κ : Type} [DecidableEq κ] {locks later : KeyedLocks Nat κ} {owes owes' : Nat → Prop}
  {share share' : Nat → Option (κ × Bool)} {i : Nat} {key : κ}

/-- Locks that agree with the shares still do after one job has changed. -/
theorem update (h : Agrees locks owes share)
    (hothers : ∀ j, j ≠ i → (owes' j ↔ owes j) ∧ share' j = share j) (hcoherent : later.Coherent)
    (hlocks : ∀ j, j ≠ i → later.share? j = locks.share? j)
    (hself : ¬ owes' i → later.share? i = share' i) (hnone : owes' i → share' i = none) :
  Agrees later owes' share'
  := by
  use hcoherent
  · intro j hj
    by_cases heq : j = i
    · subst heq
      apply hself hj
    · obtain ⟨howes, hshare⟩ := hothers j heq
      rw [hlocks j heq, hshare]
      apply h.share?_eq j (mt howes.mpr hj)
  · intro j hj
    by_cases heq : j = i
    · subst heq
      apply hnone hj
    · obtain ⟨howes, hshare⟩ := hothers j heq
      rw [hshare]
      apply h.share_eq_none j (howes.mp hj)

section

variable (h : Agrees locks owes share)
  (hothers : ∀ j, j ≠ i → (owes' j ↔ owes j) ∧ share' j = share j)

include h hothers

theorem keep (hbefore : ¬ owes i) (hafter : ¬ owes' i) (hsame : share' i = share i) :
  Agrees locks owes' share'
  := by
  apply h.update hothers h.coherent
  · intro j _
    rfl
  · intro _
    rw [h.share?_eq i hbefore, hsame]
  · intro howes
    contradiction

theorem ask (hbefore : ¬ owes i) (hafter : ¬ owes' i) (hnone : share i = none)
    (hasked : share' i = some (key, false)) :
  Agrees (locks.ask i key) owes' share'
  := by
  have hnew : locks.share? i = none := by rw [h.share?_eq i hbefore, hnone]
  apply h.update hothers (h.coherent.ask hnew key)
  · intro j hne
    rw [KeyedLocks.share?_ask hnew, if_neg hne]
  · intro _
    rw [KeyedLocks.share?_ask hnew, if_pos rfl, hasked]
  · intro howes
    contradiction

theorem grant (hbefore : ¬ owes i) (hafter : ¬ owes' i) (hnext : locks.isNext i)
    (hasked : share i = some (key, false)) (hgranted : share' i = some (key, true)) :
  Agrees (locks.grant i) owes' share'
  := by
  have hwaits : locks.share? i = some (key, false) := by rw [h.share?_eq i hbefore, hasked]
  apply h.update hothers (h.coherent.grant hnext)
  · intro j hne
    rw [KeyedLocks.share?_grant hwaits, if_neg hne]
  · intro _
    rw [KeyedLocks.share?_grant hwaits, if_pos rfl, hgranted]
  · intro howes
    contradiction

theorem leave (hafter : ¬ owes' i) (hnone : share' i = none) :
  Agrees (locks.leave i) owes' share'
  := by
  apply h.update hothers (h.coherent.leave i)
  · intro j hne
    rw [KeyedLocks.share?_leave, if_neg hne]
  · intro _
    rw [KeyedLocks.share?_leave, if_pos rfl, hnone]
  · intro howes
    contradiction

theorem owe (hafter : owes' i) (hnone : share' i = none) :
  Agrees locks owes' share'
  := by
  apply h.update hothers h.coherent
  · intro j _
    rfl
  · intro howes
    contradiction
  · intro _
    apply hnone

end

end Agrees

/-! ### Permits -/

/-- The permits agree with the jobs that should have asked for one, and with those that should hold
one, but for those who owe a permit. -/
structure AgreesPermits (permits : Permits Nat) (owes asks holds : Nat → Prop) : Prop where
  coherent : permits.Coherent
  mem_asked : ∀ i, ¬ owes i → (i ∈ permits.asked ↔ asks i)
  mem_held : ∀ i, holds i → i ∈ permits.held
  not_asks : ∀ i, owes i → ¬ asks i
  asks_of_holds : ∀ i, holds i → asks i

namespace AgreesPermits

variable {permits later : Permits Nat} {owes owes' asks asks' holds holds' : Nat → Prop} {i : Nat}

theorem update (h : AgreesPermits permits owes asks holds)
    (hothers : ∀ j, j ≠ i → (owes' j ↔ owes j) ∧ (asks' j ↔ asks j) ∧ (holds' j ↔ holds j))
    (hcoherent : later.Coherent)
    (hasked : ∀ j, j ≠ i → (j ∈ later.asked ↔ j ∈ permits.asked))
    (hheld : ∀ j, j ≠ i → j ∈ permits.held → j ∈ later.held)
    (hself : ¬ owes' i → (i ∈ later.asked ↔ asks' i)) (hholds : holds' i → i ∈ later.held ∧ asks' i)
    (hnot : owes' i → ¬ asks' i) :
  AgreesPermits later owes' asks' holds'
  := by
  use hcoherent
  · intro j hj
    by_cases heq : j = i
    · subst heq
      apply hself hj
    · obtain ⟨howes, hasks, -⟩ := hothers j heq
      rw [hasked j heq, hasks]
      apply h.mem_asked j (mt howes.mpr hj)
  · intro j hj
    by_cases heq : j = i
    · subst heq
      apply (hholds hj).1
    · apply hheld j heq (h.mem_held j ((hothers j heq).2.2.mp hj))
  · intro j hj
    by_cases heq : j = i
    · subst heq
      apply hnot hj
    · obtain ⟨howes, hasks, -⟩ := hothers j heq
      rw [hasks]
      apply h.not_asks j (howes.mp hj)
  · intro j hj
    by_cases heq : j = i
    · subst heq
      apply (hholds hj).2
    · obtain ⟨-, hasks, hholds⟩ := hothers j heq
      rw [hasks]
      apply h.asks_of_holds j (hholds.mp hj)

section

variable (h : AgreesPermits permits owes asks holds)
  (hothers : ∀ j, j ≠ i → (owes' j ↔ owes j) ∧ (asks' j ↔ asks j) ∧ (holds' j ↔ holds j))

include h hothers

theorem keep (hbefore : ¬ owes i) (hafter : ¬ owes' i) (hsame : asks' i ↔ asks i)
    (hholds : holds' i → i ∈ permits.held ∧ asks' i) :
  AgreesPermits permits owes' asks' holds'
  := by
  apply h.update hothers h.coherent
  · intro j _
    rfl
  · intro j _ hj
    apply hj
  · intro _
    rw [h.mem_asked i hbefore, hsame]
  · apply hholds
  · intro howes
    contradiction

theorem acquire (hbefore : ¬ owes i) (hnew : ¬ asks i) (hasks : asks' i) (hholds : ¬ holds' i)
    (hafter : ¬ owes' i) :
  AgreesPermits (permits.acquire i) owes' asks' holds'
  := by
  have hnew : i ∉ permits.asked := mt (h.mem_asked i hbefore).mp hnew
  apply h.update hothers (h.coherent.acquire hnew)
  · intro j hne
    rw [Permits.asked_acquire, List.mem_append, List.mem_singleton]
    simp [hne]
  · intro j _ hj
    apply Permits.mem_held_acquire hj
  · intro _
    rw [Permits.asked_acquire]
    simp [hasks]
  · intro hj
    contradiction
  · intro howes
    contradiction

theorem owe (hasks : ¬ asks' i) (hholds : ¬ holds' i) (hafter : owes' i) :
  AgreesPermits permits owes' asks' holds'
  := by
  apply h.update hothers h.coherent
  · intro j _
    rfl
  · intro j _ hj
    apply hj
  · intro howes
    contradiction
  · intro hj
    contradiction
  · intro _
    apply hasks

/-- A permit is given back, or the wait for it is given up. -/
theorem repay (hasks : ¬ asks' i) (hholds : ¬ holds' i) (hafter : ¬ owes' i) :
  AgreesPermits (if i ∈ permits.held then permits.release i else permits.giveUp i) owes' asks' holds'
  := by
  split
  · rename_i hheld
    apply h.update hothers (h.coherent.release hheld)
    · intro j hne
      rw [Permits.asked_release hheld, List.mem_erase_of_ne hne]
    · intro j hne hj
      apply Permits.mem_held_release hj hne
    · intro _
      rw [Permits.asked_release hheld, h.coherent.nodup.mem_erase_iff]
      simp [hasks]
    · intro hj
      contradiction
    · intro howes
      contradiction
  · rename_i hheld
    apply h.update hothers (h.coherent.giveUp hheld)
    · intro j hne
      rw [Permits.asked_giveUp hheld, List.mem_erase_of_ne hne]
    · intro j _ hj
      apply hj
    · intro _
      rw [Permits.asked_giveUp hheld, h.coherent.nodup.mem_erase_iff]
      simp [hasks]
    · intro hj
      contradiction
    · intro howes
      contradiction

end

end AgreesPermits

end Scrutiny
