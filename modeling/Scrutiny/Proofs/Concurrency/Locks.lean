import Scrutiny.Concurrency.Locks
import Mathlib.Data.List.Nodup

/-!
# Mutual exclusion

At most one owner holds the lock of a key, however the locks are asked for, granted and released,
and although unused locks are dropped from the table.  As long as somebody waits for a lock,
somebody holds one or can be granted one.
-/

namespace Scrutiny.KeyedLocks

variable {ι κ : Type}

/-! ### The claim of an owner -/

section

variable [DecidableEq ι] {locks : KeyedLocks ι κ} {owner : ι} {claim : LockClaim ι κ}

/-- The key whose lock an owner has asked for, and whether it holds the lock. -/
def share? (locks : KeyedLocks ι κ) (owner : ι) : Option (κ × Bool) :=
  (locks.claim? owner).map fun claim => (claim.key, claim.holds)

theorem of_claim?_eq_some (h : locks.claim? owner = some claim) :
  claim ∈ locks.claims ∧ claim.owner = owner
  := by
  rw [claim?] at h
  use List.mem_of_find?_eq_some h
  simpa using List.find?_some h

theorem share?_eq_none_iff :
  locks.share? owner = none ↔ ∀ claim ∈ locks.claims, claim.owner ≠ owner
  := by
  rw [share?, Option.map_eq_none_iff, claim?, List.find?_eq_none]
  simp

theorem isNext_iff :
  locks.isNext owner ↔ ∃ claim, locks.claim? owner = some claim ∧ claim.holds = false
    ∧ ∃ first, locks.claims.find? (·.lock == claim.lock) = some first ∧ first.owner = owner
  := by
  rw [isNext]
  cases locks.claim? owner with
  | none => simp
  | some claim => simp [Option.any_eq_true]

end

/-! ### Locks in the table -/

/-- The first element with a property stays the first one if others are left out. -/
theorem find?_filter_of_find?_eq_some {α : Type} {list : List α} {p q : α → Bool} {a : α}
    (h : list.find? q = some a) (ha : p a) :
  (list.filter p).find? q = some a
  := by
  obtain ⟨hq, front, back, rfl, hfront⟩ := List.find?_eq_some_iff_append.mp h
  rw [List.find?_eq_some_iff_append]
  use hq, front.filter p, back.filter p
  constructor
  · rw [List.filter_append, List.filter_cons_of_pos ha]
  · intro other hother
    apply hfront other (List.mem_of_mem_filter hother)

section

variable [DecidableEq κ] {locks : KeyedLocks ι κ} {key other : κ} {lock : Nat}

/-- Each owner has at most one claim, the lock of a claim is the one that the table has for its key,
and who holds a lock is the first of those who have asked for it. -/
structure Coherent (locks : KeyedLocks ι κ) : Prop where
  nodup : (locks.claims.map (·.owner)).Nodup
  lockOf?_eq : ∀ claim ∈ locks.claims, locks.lockOf? claim.key = some claim.lock
  find?_eq : ∀ claim ∈ locks.claims, claim.holds →
    locks.claims.find? (·.lock == claim.lock) = some claim

theorem coherent_empty :
  (empty : KeyedLocks ι κ).Coherent
  := by
  constructor
  · apply List.nodup_nil
  · intro claim hclaim
    cases hclaim
  · intro claim hclaim
    cases hclaim

/-- A lock that somebody has asked for stays in the table. -/
theorem lockOf?_prune (hlock : locks.lockOf? key = some lock) (hused : locks.isUsed lock) :
  locks.prune.lockOf? key = some lock
  := by
  rw [prune]
  split
  · obtain ⟨entry, hfind, rfl⟩ := Option.map_eq_some_iff.mp hlock
    rw [lockOf?, Option.map_eq_some_iff]
    use entry, find?_filter_of_find?_eq_some hfind hused
  · apply hlock

/-- The table has a lock for the key afterwards. -/
theorem lockOf?_withLock_self (locks : KeyedLocks ι κ) (key : κ) :
  (locks.withLock key).2.lockOf? key = some (locks.withLock key).1
  := by
  rw [withLock]
  cases hlock : locks.lockOf? key with
  | some lock => apply hlock
  | none => simp [lockOf?]

/-- The locks of the table stay. -/
theorem lockOf?_withLock (h : locks.lockOf? other = some lock) :
  (locks.withLock key).2.lockOf? other = some lock
  := by
  rw [withLock]
  cases hlock : locks.lockOf? key with
  | some _ => apply h
  | none =>
      have hne : key ≠ other := by
        rintro rfl
        rw [hlock] at h
        cases h
      rw [lockOf?, List.find?_cons_of_neg (by simpa using hne)]
      apply h

theorem claims_ask (locks : KeyedLocks ι κ) (owner : ι) (key : κ) :
  (locks.ask owner key).claims
    = locks.claims ++ [{ owner, key, lock := (locks.prune.withLock key).1, holds := false }]
  := by
  have hprune : locks.prune.claims = locks.claims := by
    rw [prune]
    split <;> rfl
  have hwith : (locks.prune.withLock key).2.claims = locks.prune.claims := by
    rw [withLock]
    split <;> rfl
  rw [ask]
  dsimp only
  rw [hwith, hprune]

/-- The locks that claims refer to stay in the table while others are dropped. -/
theorem lockOf?_ask (h : ∀ claim ∈ locks.claims, locks.lockOf? claim.key = some claim.lock)
    (owner : ι) (key : κ) :
  ∀ claim ∈ (locks.ask owner key).claims, (locks.ask owner key).lockOf? claim.key = some claim.lock
  := by
  intro claim hclaim
  rw [claims_ask, List.mem_append, List.mem_singleton] at hclaim
  rcases hclaim with hclaim | rfl
  · apply lockOf?_withLock
    apply lockOf?_prune (h claim hclaim)
    apply List.any_eq_true.mpr
    use claim, hclaim
    apply beq_self_eq_true
  · apply lockOf?_withLock_self

end

variable [DecidableEq ι] [DecidableEq κ] {locks : KeyedLocks ι κ} {owner other : ι} {key : κ}
  {claim : LockClaim ι κ}

theorem Coherent.claim?_eq_some_iff (h : locks.Coherent) :
  locks.claim? owner = some claim ↔ claim ∈ locks.claims ∧ claim.owner = owner
  := by
  constructor
  · apply of_claim?_eq_some
  · rintro ⟨hmem, rfl⟩
    cases hfound : locks.claim? claim.owner with
    | none =>
        have hne := List.find?_eq_none.mp hfound claim hmem
        simp at hne
    | some other =>
        obtain ⟨hother, howner⟩ := of_claim?_eq_some hfound
        rw [List.inj_on_of_nodup_map h.nodup hother hmem howner]

theorem Coherent.share?_eq_some_iff (h : locks.Coherent) {share : κ × Bool} :
  locks.share? owner = some share
    ↔ ∃ claim ∈ locks.claims, claim.owner = owner ∧ (claim.key, claim.holds) = share
  := by
  rw [share?, Option.map_eq_some_iff]
  constructor
  · rintro ⟨claim, hclaim, hshare⟩
    obtain ⟨hmem, howner⟩ := of_claim?_eq_some hclaim
    use claim
  · rintro ⟨claim, hmem, howner, hshare⟩
    use claim, h.claim?_eq_some_iff.mpr ⟨hmem, howner⟩

/-! ### Asking for a lock -/

theorem Coherent.ask (h : locks.Coherent) (hnew : locks.share? owner = none) (key : κ) :
  (locks.ask owner key).Coherent
  := by
  constructor
  · rw [claims_ask, List.map_append]
    apply List.Nodup.append h.nodup (List.nodup_singleton _)
    intro other hother hself
    obtain ⟨claim, hclaim, rfl⟩ := List.mem_map.mp hother
    apply share?_eq_none_iff.mp hnew claim hclaim
    simpa using hself
  · apply lockOf?_ask h.lockOf?_eq owner key
  · intro claim hclaim hholds
    rw [claims_ask, List.mem_append, List.mem_singleton] at hclaim
    rcases hclaim with hclaim | rfl
    · rw [claims_ask, List.find?_append, h.find?_eq claim hclaim hholds]
      rfl
    · cases hholds

theorem share?_ask (hnew : locks.share? owner = none) (key : κ) (other : ι) :
  (locks.ask owner key).share? other = if other = owner then some (key, false) else locks.share? other
  := by
  rw [share?, claim?, claims_ask, List.find?_append]
  split
  · rename_i heq
    subst heq
    have hnone : locks.claims.find? (·.owner == other) = none := by
      simpa [share?, claim?] using hnew
    rw [hnone]
    simp
  · rename_i hne
    have hnone (lock : Nat) : [({ owner, key, lock, holds := false } : LockClaim ι κ)].find?
        (·.owner == other) = none := by
      simpa using Ne.symm hne
    rw [hnone, Option.or_none]
    rfl

/-! ### Granting a lock -/

/-- The claim of the owner after its lock was granted, and any other claim as it is. -/
def granted (owner : ι) (claim : LockClaim ι κ) : LockClaim ι κ :=
  if claim.owner = owner then { claim with holds := true } else claim

omit [DecidableEq κ] in
theorem claims_grant (locks : KeyedLocks ι κ) (owner : ι) :
  (locks.grant owner).claims = locks.claims.map (granted owner)
  := rfl

omit [DecidableEq κ] in
theorem granted_eq (owner : ι) (claim : LockClaim ι κ) :
  (granted owner claim).owner = claim.owner ∧ (granted owner claim).key = claim.key
    ∧ (granted owner claim).lock = claim.lock
  := by
  rw [granted]
  split <;> exact ⟨rfl, rfl, rfl⟩

theorem Coherent.grant (h : locks.Coherent) (hnext : locks.isNext owner) :
  (locks.grant owner).Coherent
  := by
  constructor
  · rw [claims_grant, List.map_map]
    have howners : (fun claim : LockClaim ι κ => claim.owner) ∘ granted owner = (·.owner) := by
      funext claim
      apply (granted_eq owner claim).1
    rw [howners]
    apply h.nodup
  · intro claim hclaim
    obtain ⟨claim, hold, rfl⟩ := List.mem_map.mp hclaim
    obtain ⟨-, hkey, hlock⟩ := granted_eq owner claim
    change locks.lockOf? (granted owner claim).key = some (granted owner claim).lock
    rw [hkey, hlock]
    apply h.lockOf?_eq claim hold
  · intro claim hclaim hholds
    obtain ⟨claim, hold, rfl⟩ := List.mem_map.mp hclaim
    change (granted owner claim).holds at hholds
    change (locks.claims.map (granted owner)).find? (·.lock == (granted owner claim).lock)
      = some (granted owner claim)
    have hlocks : (fun other : LockClaim ι κ => other.lock == (granted owner claim).lock)
        ∘ granted owner = (·.lock == claim.lock) := by
      funext other
      rw [Function.comp_apply, (granted_eq owner other).2.2, (granted_eq owner claim).2.2]
    rw [List.find?_map, hlocks]
    -- The one to whom the lock is granted is the first who has asked for it.
    have hfirst : locks.claims.find? (·.lock == claim.lock) = some claim := by
      by_cases howner : claim.owner = owner
      · obtain ⟨asked, hasked, -, first, hfirst, hfirstOwner⟩ := isNext_iff.mp hnext
        obtain rfl : asked = claim := by
          rw [h.claim?_eq_some_iff.mpr ⟨hold, howner⟩] at hasked
          apply (Option.some.inj hasked).symm
        obtain rfl : first = asked := by
          apply List.inj_on_of_nodup_map h.nodup (List.mem_of_find?_eq_some hfirst) hold
          rw [hfirstOwner, howner]
        apply hfirst
      · rw [granted, if_neg howner] at hholds
        apply h.find?_eq claim hold hholds
    rw [hfirst, Option.map_some]

omit [DecidableEq κ] in
theorem share?_grant {holds : Bool} (h : locks.share? owner = some (key, holds)) (other : ι) :
  (locks.grant owner).share? other = if other = owner then some (key, true) else locks.share? other
  := by
  have hclaim : (locks.grant owner).claim? other = (locks.claim? other).map (granted owner) := by
    rw [claim?, claims_grant, List.find?_map]
    have howners : (fun claim : LockClaim ι κ => claim.owner == other) ∘ granted owner
        = (·.owner == other) := by
      funext claim
      rw [Function.comp_apply, (granted_eq owner claim).1]
    rw [howners]
    rfl
  rw [share?, hclaim]
  split
  · rename_i heq
    subst heq
    rw [share?] at h
    obtain ⟨claim, hclaim, hshare⟩ := Option.map_eq_some_iff.mp h
    have howner := (of_claim?_eq_some hclaim).2
    rw [hclaim, Option.map_some, Option.map_some, granted, if_pos howner]
    rw [(Prod.mk.inj hshare).1]
  · rename_i hne
    rw [share?]
    cases hclaim : locks.claim? other with
    | none => rfl
    | some claim =>
        have howner := (of_claim?_eq_some hclaim).2
        rw [Option.map_some, Option.map_some, granted, if_neg (by rwa [howner]), Option.map_some]

/-! ### Releasing a lock -/

theorem Coherent.leave (h : locks.Coherent) (owner : ι) :
  (locks.leave owner).Coherent
  := by
  constructor
  · apply List.Nodup.sublist (List.Sublist.map _ List.filter_sublist) h.nodup
  · intro claim hclaim
    apply h.lockOf?_eq claim (List.mem_of_mem_filter hclaim)
  · intro claim hclaim hholds
    obtain ⟨hold, hne⟩ := List.mem_filter.mp hclaim
    apply find?_filter_of_find?_eq_some (h.find?_eq claim hold hholds) hne

omit [DecidableEq κ] in
theorem share?_leave (locks : KeyedLocks ι κ) (owner other : ι) :
  (locks.leave owner).share? other = if other = owner then none else locks.share? other
  := by
  split
  · rename_i heq
    subst heq
    rw [share?_eq_none_iff]
    intro claim hclaim
    simpa using (List.mem_filter.mp hclaim).2
  · rename_i hne
    cases hclaim : locks.claim? other with
    | none =>
        have hnone : locks.share? other = none := by rw [share?, hclaim]; rfl
        rw [hnone, share?_eq_none_iff]
        intro claim hmem
        apply share?_eq_none_iff.mp hnone claim (List.mem_of_mem_filter hmem)
    | some claim =>
        have howner := (of_claim?_eq_some hclaim).2
        have hkept : (locks.leave owner).claim? other = some claim := by
          apply find?_filter_of_find?_eq_some hclaim
          simpa [howner] using hne
        rw [share?, share?, hkept, hclaim]

/-! ### Exclusion and progress -/

/-- At most one owner holds the lock of a key. -/
theorem Coherent.eq_of_share?_eq (h : locks.Coherent) (howner : locks.share? owner = some (key, true))
    (hother : locks.share? other = some (key, true)) :
  owner = other
  := by
  obtain ⟨claim, hclaim, rfl, hshare⟩ := h.share?_eq_some_iff.mp howner
  obtain ⟨claim', hclaim', rfl, hshare'⟩ := h.share?_eq_some_iff.mp hother
  obtain ⟨hkey, hholds⟩ := Prod.mk.inj hshare
  obtain ⟨hkey', hholds'⟩ := Prod.mk.inj hshare'
  have hlock : claim.lock = claim'.lock := by
    apply Option.some.inj
    rw [← h.lockOf?_eq claim hclaim, ← h.lockOf?_eq claim' hclaim', hkey, hkey']
  have hfirst := h.find?_eq claim hclaim hholds
  rw [hlock, h.find?_eq claim' hclaim' hholds'] at hfirst
  rw [Option.some.inj hfirst]

/-- If somebody waits for a lock, the first who has asked for it holds it or can be granted it. -/
theorem Coherent.exists_holds_or_isNext (h : locks.Coherent)
    (howner : locks.share? owner = some (key, false)) :
  ∃ first key, locks.share? first = some (key, true)
    ∨ locks.share? first = some (key, false) ∧ locks.isNext first
  := by
  obtain ⟨claim, hclaim, -⟩ := h.share?_eq_some_iff.mp howner
  cases hfirst : locks.claims.find? (·.lock == claim.lock) with
  | none =>
      have hne := List.find?_eq_none.mp hfirst claim hclaim
      simp at hne
  | some first =>
      have hmem := List.mem_of_find?_eq_some hfirst
      have hlock : first.lock = claim.lock := by simpa using List.find?_some hfirst
      use first.owner, first.key
      cases hholds : first.holds with
      | true =>
          left
          rw [h.share?_eq_some_iff]
          use first, hmem, rfl
          rw [hholds]
      | false =>
          right
          constructor
          · rw [h.share?_eq_some_iff]
            use first, hmem, rfl
            rw [hholds]
          · rw [isNext_iff]
            use first, h.claim?_eq_some_iff.mpr ⟨hmem, rfl⟩, hholds, first
            rw [hlock]
            use hfirst

end Scrutiny.KeyedLocks
