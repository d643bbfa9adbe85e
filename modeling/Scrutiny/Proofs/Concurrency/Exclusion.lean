import Scrutiny.Proofs.Concurrency.Locks

/-!
# Exclusion although locks are dropped

However locks are asked for, granted and left, and however many keys there are, everybody who waits for
the lock of a key or holds it refers to the one lock that the table has for the key: a lock is dropped
from the table only if nobody refers to it.  So nobody ever gets a lock of a key whose lock is held, and
the locks of different keys do not block each other.
-/

namespace Scrutiny.KeyedLocks

variable {ι κ : Type} [DecidableEq κ] {locks next : KeyedLocks ι κ}

/-- The lock of each claim is the one that the table has for its key, no lock is held twice, and the table
has different locks for different keys. -/
structure Exclusive (locks : KeyedLocks ι κ) : Prop where
  lockOf?_eq : ∀ claim ∈ locks.claims, locks.lockOf? claim.key = some claim.lock
  pairwise : locks.claims.Pairwise fun a b => a.lock = b.lock → ¬ (a.holds ∧ b.holds)
  nodup : (locks.table.map (·.2)).Nodup
  lt_next : ∀ lock ∈ locks.table.map (·.2), lock < locks.next

theorem exclusive_empty :
  (empty : KeyedLocks ι κ).Exclusive
  := by
  constructor
  · intro claim hclaim
    cases hclaim
  · apply List.Pairwise.nil
  · apply List.nodup_nil
  · intro lock hlock
    cases hlock

/-! ### The table -/

omit [DecidableEq κ] in
theorem prune_eq (locks : KeyedLocks ι κ) :
  ∃ table, table.Sublist locks.table ∧ locks.prune = { locks with table }
  := by
  rw [prune]
  split
  · exact ⟨_, List.filter_sublist, rfl⟩
  · exact ⟨_, List.Sublist.refl _, rfl⟩

/-- The table keeps its locks, or a new one is added to them. -/
theorem withLock_cases (locks : KeyedLocks ι κ) (key : κ) :
  (locks.withLock key).2 = locks
    ∨ (locks.withLock key).2
      = { locks with table := (key, locks.next) :: locks.table, next := locks.next + 1 }
  := by
  rw [withLock]
  split
  · exact .inl rfl
  · exact .inr rfl

theorem Exclusive.nodup_ask (h : locks.Exclusive) (owner : ι) (key : κ) :
  ((locks.ask owner key).table.map (·.2)).Nodup
    ∧ ∀ lock ∈ (locks.ask owner key).table.map (·.2), lock < (locks.ask owner key).next
  := by
  obtain ⟨table, hsublist, hprune⟩ := locks.prune_eq
  have hlocks := hsublist.map (·.2)
  have hnodup := hlocks.nodup h.nodup
  have hlt : ∀ lock ∈ table.map (·.2), lock < locks.next := fun lock hlock =>
    h.lt_next lock (hlocks.subset hlock)
  change ((locks.prune.withLock key).2.table.map (·.2)).Nodup
    ∧ ∀ lock ∈ (locks.prune.withLock key).2.table.map (·.2), lock < (locks.prune.withLock key).2.next
  rcases locks.prune.withLock_cases key with hwith | hwith
  · rw [hwith, hprune]
    use hnodup
  · rw [hwith, hprune]
    constructor
    · rw [List.map_cons, List.nodup_cons]
      use fun hmem => absurd (hlt _ hmem) (Nat.lt_irrefl _)
    · rw [List.map_cons, List.forall_mem_cons]
      use Nat.lt_succ_self _
      intro lock hlock
      apply Nat.lt_succ_of_lt (hlt lock hlock)

/-- Whoever refers to the same lock refers to it for the same key. -/
theorem Exclusive.key_eq (h : locks.Exclusive) {a b : LockClaim ι κ} (ha : a ∈ locks.claims)
    (hb : b ∈ locks.claims) (hlock : a.lock = b.lock) :
  a.key = b.key
  := by
  have hentry : ∀ claim ∈ locks.claims,
      ∃ entry ∈ locks.table, entry.2 = claim.lock ∧ entry.1 = claim.key := by
    intro claim hclaim
    obtain ⟨entry, hfind, hentry⟩ := Option.map_eq_some_iff.mp (h.lockOf?_eq claim hclaim)
    exact ⟨entry, List.mem_of_find?_eq_some hfind, hentry, by simpa using List.find?_some hfind⟩
  obtain ⟨first, hfirst, hfirstLock, hfirstKey⟩ := hentry a ha
  obtain ⟨second, hsecond, hsecondLock, hsecondKey⟩ := hentry b hb
  rw [← hfirstKey, ← hsecondKey, List.inj_on_of_nodup_map h.nodup hfirst hsecond
    (by rw [hfirstLock, hsecondLock, hlock])]

/-! ### Steps -/

/-- Asking for a lock leaves those alone that are held, even if unused locks are dropped. -/
theorem Exclusive.ask (h : locks.Exclusive) (owner : ι) (key : κ) :
  (locks.ask owner key).Exclusive
  := by
  obtain ⟨hnodup, hlt⟩ := h.nodup_ask owner key
  refine ⟨lockOf?_ask h.lockOf?_eq owner key, ?_, hnodup, hlt⟩
  rw [claims_ask, List.pairwise_append]
  refine ⟨h.pairwise, List.pairwise_singleton _ _, ?_⟩
  rintro a - b hb - ⟨-, hholds⟩
  rw [List.mem_singleton.mp hb] at hholds
  cases hholds

omit [DecidableEq κ] in
/-- A lock is granted to a claim if no other claim holds it. -/
theorem of_grantAt?_eq_some {i : Nat} (h : locks.grantAt? i = some next) :
  ∃ front claim back, locks.claims = front ++ claim :: back
    ∧ (∀ other ∈ locks.claims, other.lock = claim.lock → other.holds = false)
    ∧ next = { locks with claims := front ++ { claim with holds := true } :: back }
  := by
  obtain ⟨claim, hclaim, h⟩ := Option.bind_eq_some_iff.mp h
  split_ifs at h with hfree
  obtain ⟨hi, rfl⟩ := List.getElem?_eq_some_iff.mp hclaim
  refine ⟨locks.claims.take i, locks.claims[i], locks.claims.drop (i + 1), ?_, ?_, ?_⟩
  · rw [List.getElem_cons_drop, List.take_append_drop]
  · intro other hother hlock
    have hnot := List.all_eq_true.mp hfree other hother
    rw [hlock] at hnot
    simpa using hnot
  · rw [← Option.some.inj h, List.set_eq_take_append_cons_drop, if_pos hi]

omit [DecidableEq κ] in
/-- A lock is granted to one claim only. -/
theorem pairwise_of_grantAt? {i : Nat}
    (hpairwise : locks.claims.Pairwise fun a b => a.lock = b.lock → ¬ (a.holds ∧ b.holds))
    (h : locks.grantAt? i = some next) :
  next.claims.Pairwise fun a b => a.lock = b.lock → ¬ (a.holds ∧ b.holds)
  := by
  obtain ⟨front, claim, back, hclaims, hfree, rfl⟩ := of_grantAt?_eq_some h
  rw [hclaims] at hpairwise hfree
  rw [List.pairwise_append, List.pairwise_cons] at hpairwise ⊢
  obtain ⟨hfront, ⟨-, hback⟩, hacross⟩ := hpairwise
  refine ⟨hfront, ⟨?_, hback⟩, ?_⟩
  · rintro other hother hlock ⟨-, hholds⟩
    rw [hfree other (by simp [hother]) hlock.symm] at hholds
    cases hholds
  · intro other hother later hlater
    rcases List.mem_cons.mp hlater with rfl | hlater
    · rintro hlock ⟨hholds, -⟩
      rw [hfree other (by simp [hother]) hlock] at hholds
      cases hholds
    · apply hacross other hother later (List.mem_cons_of_mem _ hlater)

theorem Exclusive.of_grantAt? (h : locks.Exclusive) {i : Nat} (hgrant : locks.grantAt? i = some next) :
  next.Exclusive
  := by
  have hpairwise := pairwise_of_grantAt? h.pairwise hgrant
  obtain ⟨front, claim, back, hclaims, -, rfl⟩ := of_grantAt?_eq_some hgrant
  refine ⟨?_, hpairwise, h.nodup, h.lt_next⟩
  intro other hother
  rcases List.mem_append.mp hother with hother | hother
  · apply h.lockOf?_eq other
    simp [hclaims, hother]
  · rcases List.mem_cons.mp hother with rfl | hother
    · apply h.lockOf?_eq claim
      simp [hclaims]
    · apply h.lockOf?_eq other
      simp [hclaims, hother]

theorem Exclusive.of_leaveAt? (h : locks.Exclusive) {i : Nat} (hleave : locks.leaveAt? i = some next) :
  next.Exclusive
  := by
  rw [leaveAt?] at hleave
  split_ifs at hleave
  obtain rfl := Option.some.inj hleave
  refine ⟨?_, h.pairwise.sublist (List.eraseIdx_sublist _ _), h.nodup, h.lt_next⟩
  intro claim hclaim
  apply h.lockOf?_eq claim (List.mem_of_mem_eraseIdx hclaim)

theorem Exclusive.of_step? (h : locks.Exclusive) {step : Step ι κ} (hstep : locks.step? step = some next) :
  next.Exclusive
  := by
  cases step with
  | ask owner key =>
      obtain rfl := Option.some.inj hstep
      apply h.ask
  | grant i => apply h.of_grantAt? hstep
  | leave i => apply h.of_leaveAt? hstep

theorem Exclusive.of_run? (h : locks.Exclusive) {steps : List (Step ι κ)}
    (hrun : locks.run? steps = some next) :
  next.Exclusive
  := by
  induction steps generalizing locks with
  | nil =>
      obtain rfl := Option.some.inj hrun
      apply h
  | cons step rest ih =>
      obtain ⟨middle, hstep, hrest⟩ := Option.bind_eq_some_iff.mp hrun
      apply ih (h.of_step? hstep) hrest

/-! ### Exclusion -/

/-- After any steps, all who wait for the lock of a key or hold it refer to the lock that the table has for
the key, and at most one of them holds it.  If none of them does, it can be granted to any of them,
whatever other locks are held. -/
theorem excludes_of_run? {steps : List (Step ι κ)}
    (h : (empty : KeyedLocks ι κ).run? steps = some locks) :
  (∀ claim ∈ locks.claims, locks.lockOf? claim.key = some claim.lock)
    ∧ (∀ (i j : Nat) (a b : LockClaim ι κ), locks.claims[i]? = some a → locks.claims[j]? = some b →
      a.key = b.key → a.holds → b.holds → i = j)
    ∧ ∀ (i : Nat) (claim : LockClaim ι κ), locks.claims[i]? = some claim →
      (∀ other ∈ locks.claims, other.key = claim.key → other.holds = false) →
      (locks.step? (.grant i)).isSome
  := by
  have hexclusive := exclusive_empty.of_run? h
  use hexclusive.lockOf?_eq
  constructor
  · intro i j a b ha hb hkey hholds hholds'
    have hlock : a.lock = b.lock := by
      have hlockOf := hexclusive.lockOf?_eq a (List.mem_of_getElem? ha)
      rw [hkey, hexclusive.lockOf?_eq b (List.mem_of_getElem? hb)] at hlockOf
      apply (Option.some.inj hlockOf).symm
    obtain ⟨hi, rfl⟩ := List.getElem?_eq_some_iff.mp ha
    obtain ⟨hj, rfl⟩ := List.getElem?_eq_some_iff.mp hb
    have hapart := List.pairwise_iff_getElem.mp hexclusive.pairwise
    rcases Nat.lt_trichotomy i j with hlt | heq | hgt
    · cases hapart i j hi hj hlt hlock ⟨hholds, hholds'⟩
    · apply heq
    · cases hapart j i hj hi hgt hlock.symm ⟨hholds', hholds⟩
  · intro i claim hclaim hfree
    have hall : locks.isFree claim.lock := by
      apply List.all_eq_true.mpr
      intro other hother
      by_cases hlock : other.lock = claim.lock
      · rw [hfree other hother (hexclusive.key_eq hother (List.mem_of_getElem? hclaim) hlock)]
        simp
      · simp [hlock]
    rw [step?, grantAt?, hclaim, Option.bind_eq_bind, Option.bind_some, if_pos hall, Option.isSome_some]

/-! ### More keys than the table may have -/

theorem run?_append (front back : List (Step ι κ)) (locks : KeyedLocks ι κ) :
  locks.run? (front ++ back) = (locks.run? front).bind (run? · back)
  := by
  induction front generalizing locks with
  | nil => rfl
  | cons step rest ih =>
      rw [List.cons_append, run?, run?, Option.bind_assoc]
      congr
      funext next
      apply ih

/-- The lock of one key is held, and somebody asks for the locks of some other keys and gives each of them
up again. -/
def passing (count : Nat) : List (Step Nat Nat) :=
  [.ask 0 0, .grant 0] ++ (List.range count).flatMap fun i => [.ask 1 (i + 1), .leave 1]

/-- The table still has the locks of all keys, as long as there are not too many. -/
theorem run?_passing {count : Nat} (h : count < pruneThreshold) :
  empty.run? (passing count)
    = some ⟨((List.range (count + 1)).map fun i => (i, i)).reverse, count + 1, [⟨0, 0, 0, true⟩]⟩
  := by
  induction count with
  | zero => rfl
  | succ count ih =>
      have hsteps : passing (count + 1) = passing count ++ [.ask 1 (count + 1), .leave 1] := by
        rw [passing, List.range_succ, List.flatMap_append, ← List.append_assoc]
        rfl
      rw [hsteps, run?_append, ih (Nat.lt_of_succ_lt h), Option.bind_some]
      generalize hlocks : (⟨((List.range (count + 1)).map fun i => (i, i)).reverse, count + 1,
        [⟨0, 0, 0, true⟩]⟩ : KeyedLocks Nat Nat) = locks
      have hprune : locks.prune = locks := by
        rw [prune, if_neg]
        simpa [← hlocks] using h
      have hnew : locks.lockOf? (count + 1) = none := by
        rw [lockOf?, Option.map_eq_none_iff, List.find?_eq_none, ← hlocks]
        intro entry hentry
        simp only [List.mem_reverse, List.mem_map, List.mem_range] at hentry
        obtain ⟨i, hi, rfl⟩ := hentry
        simp
        omega
      rw [run?, step?, Option.bind_some, ask, hprune, withLock, hnew, ← hlocks,
        List.range_succ (n := count + 1),
        List.map_append, List.reverse_append]
      rfl

/-- The lock of one key is held while the table grows to its largest size.  Another claim for the key waits
for that lock, and the locks of all other keys have been dropped. -/
theorem excludes_of_run?_passing :
  ∃ locks, empty.run? (passing 1023 ++ [.ask 1 0]) = some locks
    ∧ locks.table = [(0, 0)] ∧ locks.claims = [⟨0, 0, 0, true⟩, ⟨1, 0, 0, false⟩]
    ∧ (∀ claim ∈ locks.claims, locks.lockOf? claim.key = some claim.lock)
    ∧ ∀ (i j : Nat) (a b : LockClaim Nat Nat), locks.claims[i]? = some a → locks.claims[j]? = some b →
      a.key = b.key → a.holds → b.holds → i = j
  := by
  have hrun : empty.run? (passing 1023 ++ [.ask 1 0])
      = some ⟨[(0, 0)], 1024, [⟨0, 0, 0, true⟩, ⟨1, 0, 0, false⟩]⟩ := by
    rw [run?_append, run?_passing (by decide), Option.bind_some]
    decide +kernel
  obtain ⟨hlocks, hheld, -⟩ := excludes_of_run? hrun
  exact ⟨_, hrun, rfl, rfl, hlocks, hheld⟩

end Scrutiny.KeyedLocks
