import Mathlib.Data.Finset.Card
import Mathlib.Data.Finset.Insert
import Mathlib.Logic.Function.Basic
import Scrutiny.Proofs.Cache.Entry
import Scrutiny.Proofs.Cache.Names
import Scrutiny.Proofs.Chunk.Ids

/-!
# What a cache holds

To whoever uses it, a cache is two maps: a result under each fingerprint, and the fingerprints
that are listed under each chunk.  This is what the operations do to the two maps, and what they
answer.
-/

namespace Scrutiny

namespace Cache

/-- An operation on a cache. -/
inductive Operation where
  | store (key : CacheKey) (result : Json) (now : Nat)
  | invalidate (chunkId : String)
  | lookup (fingerprint : Fingerprint)
  | close
  | reopen

/-- What an operation answers. -/
inductive Answer where
  | entry (found : Option CacheEntry)
  | count (n : Nat)
  | done

/-- Performs an operation on the files of a cache. -/
def perform (cache : Cache) : Operation → FileAction Answer
  | .store key result now => return .entry (some (← cache.store key result now))
  | .invalidate chunkId => return .count (← cache.invalidate chunkId)
  | .lookup fingerprint => return .entry (cache.lookup (← get) fingerprint)
  | .close => return .count (← cache.close)
  | .reopen => do
    let _ ← openAt cache.root
    return .done

/-- Performs operations one after the other. -/
def performAll (cache : Cache) : List Operation → FileAction (List Answer)
  | [] => return []
  | operation :: rest => do
    let answer ← cache.perform operation
    let answers ← cache.performAll rest
    return answer :: answers

/-- The chunk whose list an operation reads. -/
def Operation.listId? : Operation → Option String
  | .store key _ _ => some key.indexId
  | .invalidate chunkId => some (parentId chunkId)
  | _ => none

/-- The operation has a fingerprint of 64 digits, a value that can be written, and a time of 64
bits, where it has any of these. -/
def Operation.IsProper : Operation → Prop
  | .store key result now => key.fingerprint.IsValid ∧ result.IsStorable ∧ now < 2 ^ 64
  | .lookup fingerprint => fingerprint.IsValid
  | _ => True

/-- The two maps. -/
structure Contents where
  /-- The result under each fingerprint. -/
  entries : Fingerprint → Option CacheEntry
  /-- The fingerprints under each chunk. -/
  listed : String → Finset Fingerprint

namespace Contents

/-- The maps of an empty cache. -/
def empty : Contents where
  entries _ := none
  listed _ := ∅

/-- The maps after a result was stored. -/
def store (contents : Contents) (entry : CacheEntry) (fingerprint : Fingerprint) : Contents where
  entries := Function.update contents.entries fingerprint (some entry)
  listed := Function.update contents.listed (parentId entry.chunkId)
    (insert fingerprint (contents.listed (parentId entry.chunkId)))

/-- The maps after the results that are listed under a chunk were removed. -/
def invalidate (contents : Contents) (id : String) : Contents where
  entries fingerprint :=
    if fingerprint ∈ contents.listed id then none else contents.entries fingerprint
  listed := Function.update contents.listed id ∅

/-- The number of results that are listed under a chunk. -/
def count (contents : Contents) (id : String) : Nat :=
  ((contents.listed id).filter fun fingerprint => (contents.entries fingerprint).isSome).card

/-- What an operation answers, and the maps after it. -/
def perform (contents : Contents) : Operation → Answer × Contents
  | .store key result now =>
    let entry := CacheEntry.ofKey key result now
    (.entry (some entry), contents.store entry key.fingerprint)
  | .invalidate chunkId =>
    (.count (contents.count (parentId chunkId)), contents.invalidate (parentId chunkId))
  | .lookup fingerprint => (.entry (contents.entries fingerprint), contents)
  | .close => (.count 0, contents)
  | .reopen => (.done, contents)

/-- What operations answer one after the other, and the maps after them. -/
def performAll (contents : Contents) : List Operation → List Answer × Contents
  | [] => ([], contents)
  | operation :: rest =>
    let (answer, next) := contents.perform operation
    let (answers, last) := next.performAll rest
    (answer :: answers, last)

/-- What is true of the maps after any operations: each result can be read back, stands under its
own fingerprint and is listed under its own chunk, and only fingerprints of 64 digits are
listed. -/
structure IsProper (contents : Contents) : Prop where
  storable : ∀ fingerprint entry, contents.entries fingerprint = some entry →
    entry.result.IsStorable ∧ entry.createdAt < 2 ^ 64
  fingerprint_eq : ∀ fingerprint entry, contents.entries fingerprint = some entry →
    entry.fingerprint = fingerprint.text
  listed : ∀ fingerprint entry, contents.entries fingerprint = some entry →
    fingerprint ∈ contents.listed (parentId entry.chunkId)
  valid : ∀ id, ∀ fingerprint ∈ contents.listed id, fingerprint.IsValid

theorem isProper_empty :
  empty.IsProper
  := by
  constructor
  · intro _ _ h
    cases h
  · intro _ _ h
    cases h
  · intro _ _ h
    cases h
  · intro _ _ h
    cases Finset.notMem_empty _ h

variable {contents : Contents}

theorem entries_store_self (entry : CacheEntry) (fingerprint : Fingerprint) :
  (contents.store entry fingerprint).entries fingerprint = some entry
  := Function.update_self ..

theorem entries_store_ne (entry : CacheEntry) {fingerprint other : Fingerprint}
    (hne : other ≠ fingerprint) :
  (contents.store entry fingerprint).entries other = contents.entries other
  := Function.update_of_ne hne ..

theorem listed_store_self (entry : CacheEntry) (fingerprint : Fingerprint) :
  (contents.store entry fingerprint).listed (parentId entry.chunkId)
    = insert fingerprint (contents.listed (parentId entry.chunkId))
  := Function.update_self ..

theorem listed_store_ne (entry : CacheEntry) (fingerprint : Fingerprint) {id : String}
    (hne : id ≠ parentId entry.chunkId) :
  (contents.store entry fingerprint).listed id = contents.listed id
  := Function.update_of_ne hne ..

theorem mem_listed_store (entry : CacheEntry) (fingerprint other : Fingerprint) (id : String) :
  other ∈ (contents.store entry fingerprint).listed id
    ↔ other ∈ contents.listed id ∨ id = parentId entry.chunkId ∧ other = fingerprint
  := by
  by_cases hid : id = parentId entry.chunkId
  · rw [hid, listed_store_self, Finset.mem_insert]
    simp [or_comm]
  · rw [listed_store_ne _ _ hid]
    simp [hid]

theorem IsProper.store (h : contents.IsProper) {key : CacheKey} (hkey : key.fingerprint.IsValid)
    {result : Json} (hresult : result.IsStorable) {now : Nat} (hnow : now < 2 ^ 64) :
  (contents.store (CacheEntry.ofKey key result now) key.fingerprint).IsProper
  := by
  -- An entry is the new one, or it was there under another fingerprint.
  have hentries : ∀ fingerprint entry,
      (contents.store (CacheEntry.ofKey key result now) key.fingerprint).entries fingerprint
        = some entry →
      (fingerprint = key.fingerprint ∧ entry = CacheEntry.ofKey key result now)
        ∨ contents.entries fingerprint = some entry := by
    intro fingerprint entry hentry
    by_cases heq : fingerprint = key.fingerprint
    · left
      subst heq
      rw [entries_store_self] at hentry
      use rfl, (Option.some.inj hentry).symm
    · right
      rwa [entries_store_ne _ heq] at hentry
  constructor
  · intro fingerprint entry hentry
    rcases hentries fingerprint entry hentry with ⟨-, rfl⟩ | hentry
    · use hresult, hnow
    · apply h.storable fingerprint entry hentry
  · intro fingerprint entry hentry
    rcases hentries fingerprint entry hentry with ⟨rfl, rfl⟩ | hentry
    · rfl
    · apply h.fingerprint_eq fingerprint entry hentry
  · intro fingerprint entry hentry
    rw [mem_listed_store]
    rcases hentries fingerprint entry hentry with ⟨rfl, rfl⟩ | hentry
    · right
      use rfl
    · left
      apply h.listed fingerprint entry hentry
  · intro id fingerprint hlisted
    rcases (mem_listed_store _ _ _ _).mp hlisted with hlisted | ⟨-, rfl⟩
    · apply h.valid id fingerprint hlisted
    · apply hkey

theorem listed_invalidate_self (id : String) :
  (contents.invalidate id).listed id = ∅
  := Function.update_self ..

theorem listed_invalidate_ne {id other : String} (hne : other ≠ id) :
  (contents.invalidate id).listed other = contents.listed other
  := Function.update_of_ne hne ..

theorem entries_invalidate_of_mem {id : String} {fingerprint : Fingerprint}
    (h : fingerprint ∈ contents.listed id) :
  (contents.invalidate id).entries fingerprint = none
  := if_pos h

theorem entries_invalidate_of_notMem {id : String} {fingerprint : Fingerprint}
    (h : fingerprint ∉ contents.listed id) :
  (contents.invalidate id).entries fingerprint = contents.entries fingerprint
  := if_neg h

theorem entries_invalidate_eq_some {id : String} {fingerprint : Fingerprint} {entry : CacheEntry} :
  (contents.invalidate id).entries fingerprint = some entry
    ↔ fingerprint ∉ contents.listed id ∧ contents.entries fingerprint = some entry
  := by
  by_cases hlisted : fingerprint ∈ contents.listed id
  · rw [entries_invalidate_of_mem hlisted]
    simp [hlisted]
  · rw [entries_invalidate_of_notMem hlisted]
    simp [hlisted]

/-- A result that is left after a removal belongs to another chunk. -/
theorem IsProper.parentId_ne (h : contents.IsProper) {id : String} {fingerprint : Fingerprint}
    {entry : CacheEntry} (hentry : (contents.invalidate id).entries fingerprint = some entry) :
  parentId entry.chunkId ≠ id
  := by
  obtain ⟨hlisted, hold⟩ := entries_invalidate_eq_some.mp hentry
  intro hid
  rw [← hid] at hlisted
  apply hlisted (h.listed fingerprint entry hold)

theorem IsProper.invalidate (h : contents.IsProper) (id : String) :
  (contents.invalidate id).IsProper
  := by
  constructor
  · intro fingerprint entry hentry
    apply h.storable fingerprint entry (entries_invalidate_eq_some.mp hentry).2
  · intro fingerprint entry hentry
    apply h.fingerprint_eq fingerprint entry (entries_invalidate_eq_some.mp hentry).2
  · intro fingerprint entry hentry
    rw [listed_invalidate_ne (h.parentId_ne hentry)]
    apply h.listed fingerprint entry (entries_invalidate_eq_some.mp hentry).2
  · intro other fingerprint hlisted
    by_cases hid : other = id
    · rw [hid, listed_invalidate_self] at hlisted
      cases Finset.notMem_empty _ hlisted
    · rw [listed_invalidate_ne hid] at hlisted
      apply h.valid other fingerprint hlisted

/-- Each fingerprint that is listed has a result. -/
def IsFilled (contents : Contents) : Prop :=
  ∀ id, ∀ fingerprint ∈ contents.listed id, (contents.entries fingerprint).isSome

theorem isFilled_empty :
  empty.IsFilled
  := by
  intro _ _ h
  cases Finset.notMem_empty _ h

theorem IsFilled.store (h : contents.IsFilled) (entry : CacheEntry) (fingerprint : Fingerprint) :
  (contents.store entry fingerprint).IsFilled
  := by
  intro id other hlisted
  by_cases heq : other = fingerprint
  · rw [heq, entries_store_self]
    rfl
  · rw [entries_store_ne _ heq]
    rcases (mem_listed_store _ _ _ _).mp hlisted with hlisted | ⟨-, rfl⟩
    · apply h id other hlisted
    · cases heq rfl

/-- A removal that removes nothing leaves a result for each fingerprint. -/
theorem IsFilled.invalidate (h : contents.IsFilled) {id : String} (hnone : contents.listed id = ∅) :
  (contents.invalidate id).IsFilled
  := by
  intro other fingerprint hlisted
  rw [entries_invalidate_of_notMem (by rw [hnone]; apply Finset.notMem_empty)]
  by_cases hid : other = id
  · rw [hid, listed_invalidate_self] at hlisted
    cases Finset.notMem_empty _ hlisted
  · rw [listed_invalidate_ne hid] at hlisted
    apply h other fingerprint hlisted

theorem IsProper.perform (h : contents.IsProper) {operation : Operation}
    (hproper : operation.IsProper) :
  (contents.perform operation).2.IsProper
  := by
  cases operation with
  | store key result now => apply h.store hproper.1 hproper.2.1 hproper.2.2
  | invalidate chunkId => apply h.invalidate
  | lookup fingerprint => apply h
  | close => apply h
  | reopen => apply h

theorem performAll_concat (contents : Contents) (front : List Operation) (operation : Operation) :
  (contents.performAll (front ++ [operation])).2
    = ((contents.performAll front).2.perform operation).2
  := by
  induction front generalizing contents with
  | nil => rfl
  | cons first rest ih => apply ih

theorem IsProper.performAll (h : contents.IsProper) {operations : List Operation}
    (hproper : ∀ operation ∈ operations, operation.IsProper) :
  (contents.performAll operations).2.IsProper
  := by
  induction operations generalizing contents with
  | nil => apply h
  | cons operation rest ih =>
      apply ih (h.perform (hproper operation List.mem_cons_self))
      intro other hother
      apply hproper other (List.mem_cons_of_mem _ hother)

end Contents

end Cache

end Scrutiny
