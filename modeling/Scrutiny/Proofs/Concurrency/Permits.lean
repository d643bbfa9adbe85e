import Scrutiny.Concurrency.Permits
import Mathlib.Data.List.Nodup

/-!
# Bounded permits

There are never more permits out than the bound admits, and nobody waits while one is free.
-/

namespace Scrutiny.Permits

variable {ι : Type} {permits : Permits ι} {id other : ι}

/-- All who have asked for a permit and have not given it back. -/
def asked (permits : Permits ι) : List ι :=
  permits.held ++ permits.waiting

/-- Everybody has asked at most once, the bound is kept, and permits are only waited for if all of
them are out. -/
structure Coherent (permits : Permits ι) : Prop where
  nodup : permits.asked.Nodup
  pos : 0 < permits.limit
  length_le : permits.held.length ≤ permits.limit
  length_eq : permits.waiting ≠ [] → permits.held.length = permits.limit

theorem clampConcurrency_pos (n : Nat) :
  0 < clampConcurrency n
  := by
  rw [clampConcurrency]
  omega

theorem coherent_ofLimit (limit : Nat) :
  (ofLimit limit : Permits ι).Coherent
  := by
  constructor
  · apply List.nodup_nil
  · apply clampConcurrency_pos
  · apply Nat.zero_le
  · intro hwaiting
    cases hwaiting rfl

/-! ### Handing on a permit -/

@[simp]
theorem limit_grant (permits : Permits ι) :
  permits.grant.limit = permits.limit
  := by
  rw [grant]
  split
  · split <;> rfl
  · rfl

@[simp]
theorem asked_grant (permits : Permits ι) :
  permits.grant.asked = permits.asked
  := by
  rw [grant]
  split
  · rename_i next rest hwaiting
    split
    · rw [asked, asked, hwaiting, List.append_assoc, List.singleton_append]
    · rfl
  · rfl

theorem mem_held_grant (h : id ∈ permits.held) :
  id ∈ permits.grant.held
  := by
  rw [grant]
  split
  · split
    · apply List.mem_append_left _ h
    · apply h
  · apply h

/-- One permit is handed on, which is enough if no two can be. -/
theorem coherent_grant (hnodup : permits.asked.Nodup) (hpos : 0 < permits.limit)
    (hlength : permits.held.length ≤ permits.limit)
    (hone : permits.waiting.length ≤ 1 ∨ permits.limit ≤ permits.held.length + 1) :
  permits.grant.Coherent
  := by
  constructor
  · rwa [asked_grant]
  · rwa [limit_grant]
  · rw [limit_grant, grant]
    split
    · split
      · rw [List.length_append, List.length_singleton]
        omega
      · apply hlength
    · apply hlength
  · rw [limit_grant, grant]
    split
    · rename_i next rest hwaiting
      split
      · intro hrest
        have hrest : 0 < rest.length := List.length_pos_iff.mpr hrest
        rw [hwaiting, List.length_cons] at hone
        rw [List.length_append, List.length_singleton]
        omega
      · intro _
        omega
    · intro hrest
      contradiction

/-! ### Asking for a permit -/

@[simp]
theorem limit_acquire (permits : Permits ι) (id : ι) :
  (permits.acquire id).limit = permits.limit
  := limit_grant (permits.ask id)

@[simp]
theorem asked_acquire (permits : Permits ι) (id : ι) :
  (permits.acquire id).asked = permits.asked ++ [id]
  := by
  rw [acquire, asked_grant, asked, asked, ask, List.append_assoc]

theorem mem_held_acquire (h : other ∈ permits.held) :
  other ∈ (permits.acquire id).held
  := mem_held_grant h

theorem Coherent.acquire (h : permits.Coherent) (hnew : id ∉ permits.asked) :
  (permits.acquire id).Coherent
  := by
  apply coherent_grant
  · rw [asked, ask, ← List.append_assoc]
    apply List.Nodup.append h.nodup (List.nodup_singleton id)
    simpa using hnew
  · apply h.pos
  · apply h.length_le
  · by_cases hwaiting : permits.waiting = []
    · left
      rw [ask, hwaiting]
      apply Nat.le_refl
    · right
      have := h.length_eq hwaiting
      change permits.limit ≤ permits.held.length + 1
      omega

/-! ### Giving a permit back -/

section

variable [DecidableEq ι]

@[simp]
theorem limit_release (permits : Permits ι) (id : ι) :
  (permits.release id).limit = permits.limit
  := by
  rw [release]
  split
  · apply limit_grant
  · rfl

theorem asked_release (h : id ∈ permits.held) :
  (permits.release id).asked = permits.asked.erase id
  := by
  rw [release, if_pos h, asked_grant, asked, asked, List.erase_append_left _ h]

theorem mem_held_release (h : other ∈ permits.held) (hne : other ≠ id) :
  other ∈ (permits.release id).held
  := by
  rw [release]
  split
  · apply mem_held_grant
    apply (List.mem_erase_of_ne hne).mpr h
  · apply h

theorem Coherent.release (h : permits.Coherent) (hheld : id ∈ permits.held) :
  (permits.release id).Coherent
  := by
  have hlength := List.length_erase_of_mem hheld
  have hpos := List.length_pos_of_mem hheld
  have hle := h.length_le
  rw [Permits.release, if_pos hheld]
  apply coherent_grant
  · have hasked := h.nodup.erase id
    rwa [asked, List.erase_append_left _ hheld] at hasked
  · apply h.pos
  · dsimp only
    omega
  · by_cases hwaiting : permits.waiting = []
    · left
      dsimp only
      rw [hwaiting]
      apply Nat.zero_le
    · right
      have := h.length_eq hwaiting
      dsimp only
      omega

/-! ### Giving up -/

theorem asked_giveUp (h : id ∉ permits.held) :
  (permits.giveUp id).asked = permits.asked.erase id
  := by
  rw [asked, asked, List.erase_append_right _ h]
  rfl

theorem Coherent.giveUp (h : permits.Coherent) (hheld : id ∉ permits.held) :
  (permits.giveUp id).Coherent
  := by
  constructor
  · rw [asked_giveUp hheld]
    apply h.nodup.erase id
  · apply h.pos
  · apply h.length_le
  · intro hwaiting
    apply h.length_eq
    intro hnone
    apply hwaiting
    rw [Permits.giveUp, hnone, List.erase_nil]

end

end Scrutiny.Permits
