/-!
# Keyed locks

One lock for each key, made when it is first asked for.  A table leads from keys to locks; when it
has grown large, the locks that nobody holds or waits for are dropped from it, so that it does not
keep a lock for every key there ever was.

A lock is known by a number that is never used again.  Whoever has asked for the lock of a key
refers to the lock that the table had for the key at that time, until it is released or the wait is
given up.  A lock that is free can be granted to any of those who wait for it; the first of them is the
one who has waited longest.
-/

namespace Scrutiny

/-- The share of one owner in a lock: it waits for the lock, or holds it. -/
structure LockClaim (ι κ : Type) where
  /-- Who has asked for the lock. -/
  owner : ι
  /-- The key that the lock is for. -/
  key : κ
  /-- The lock. -/
  lock : Nat
  /-- Whether the owner holds the lock. -/
  holds : Bool
  deriving DecidableEq, Repr

/-- The locks of some keys, with all who wait for them or hold them. -/
structure KeyedLocks (ι κ : Type) where
  /-- The lock of each key. -/
  table : List (κ × Nat)
  /-- The number of the next lock. -/
  next : Nat
  /-- The claims, in the order in which the locks were asked for. -/
  claims : List (LockClaim ι κ)
  deriving DecidableEq, Repr

namespace KeyedLocks

variable {ι κ : Type} [DecidableEq ι] [DecidableEq κ]

/-- No locks at all. -/
def empty : KeyedLocks ι κ := { table := [], next := 0, claims := [] }

/-- How many keys the table may have before unused locks are dropped from it. -/
def pruneThreshold : Nat := 1024

/-- Whether somebody holds a lock or waits for it. -/
def isUsed (locks : KeyedLocks ι κ) (lock : Nat) : Bool :=
  locks.claims.any (·.lock == lock)

/-- Drops unused locks from a table that has grown large. -/
def prune (locks : KeyedLocks ι κ) : KeyedLocks ι κ :=
  if pruneThreshold ≤ locks.table.length then
    { locks with table := locks.table.filter fun (_, lock) => locks.isUsed lock }
  else locks

/-- The lock that the table has for a key. -/
def lockOf? (locks : KeyedLocks ι κ) (key : κ) : Option Nat :=
  (locks.table.find? (·.1 == key)).map (·.2)

/-- The locks with one for a key. -/
def withLock (locks : KeyedLocks ι κ) (key : κ) : Nat × KeyedLocks ι κ :=
  match locks.lockOf? key with
  | some lock => (lock, locks)
  | none => (locks.next, { locks with table := (key, locks.next) :: locks.table, next := locks.next + 1 })

/-- The claim of an owner. -/
def claim? (locks : KeyedLocks ι κ) (owner : ι) : Option (LockClaim ι κ) :=
  locks.claims.find? (·.owner == owner)

/-- Asks for the lock of a key. -/
def ask (locks : KeyedLocks ι κ) (owner : ι) (key : κ) : KeyedLocks ι κ :=
  let (lock, made) := locks.prune.withLock key
  { made with claims := made.claims ++ [{ owner, key, lock, holds := false }] }

/-- Whether an owner waits for a lock that can be granted: it is the first of those who have asked
for the lock and have not released it. -/
def isNext (locks : KeyedLocks ι κ) (owner : ι) : Bool :=
  match locks.claim? owner with
  | some claim =>
    !claim.holds && (locks.claims.find? (·.lock == claim.lock)).any (·.owner == owner)
  | none => false

/-- Whether an owner holds a lock. -/
def holds (locks : KeyedLocks ι κ) (owner : ι) : Bool :=
  (locks.claim? owner).any (·.holds)

/-- Grants the lock that an owner waits for. -/
def grant (locks : KeyedLocks ι κ) (owner : ι) : KeyedLocks ι κ :=
  { locks with
    claims := locks.claims.map fun claim =>
      if claim.owner = owner then { claim with holds := true } else claim }

/-- Ends the claim of an owner: the lock is released, or the wait for it is given up. -/
def leave (locks : KeyedLocks ι κ) (owner : ι) : KeyedLocks ι κ :=
  { locks with claims := locks.claims.filter (·.owner ≠ owner) }

/-- Whether nobody holds a lock. -/
def isFree (locks : KeyedLocks ι κ) (lock : Nat) : Bool :=
  locks.claims.all fun claim => claim.lock != lock || !claim.holds

/-- Grants the lock that the claim at a position waits for; none if somebody holds the lock. -/
def grantAt? (locks : KeyedLocks ι κ) (i : Nat) : Option (KeyedLocks ι κ) := do
  let claim ← locks.claims[i]?
  if locks.isFree claim.lock then
    some { locks with claims := locks.claims.set i { claim with holds := true } }
  else none

/-- Ends the claim at a position: the lock is released, or the wait for it is given up. -/
def leaveAt? (locks : KeyedLocks ι κ) (i : Nat) : Option (KeyedLocks ι κ) :=
  if i < locks.claims.length then some { locks with claims := locks.claims.eraseIdx i } else none

/-- What can happen to locks.  Somebody may have several claims, so a claim is told by its position. -/
inductive Step (ι κ : Type) where
  /-- Somebody asks for the lock of a key. -/
  | ask (owner : ι) (key : κ)
  /-- A lock that is free is granted to any of those who wait for it. -/
  | grant (i : Nat)
  /-- Somebody releases a lock, or gives up waiting for it. -/
  | leave (i : Nat)
  deriving DecidableEq, Repr

/-- The locks after a step; none if the step is not possible. -/
def step? (locks : KeyedLocks ι κ) : Step ι κ → Option (KeyedLocks ι κ)
  | .ask owner key => some (locks.ask owner key)
  | .grant i => locks.grantAt? i
  | .leave i => locks.leaveAt? i

/-- The locks after some steps; none if one of them is not possible. -/
def run? (locks : KeyedLocks ι κ) : List (Step ι κ) → Option (KeyedLocks ι κ)
  | [] => some locks
  | step :: rest => (locks.step? step).bind (run? · rest)

end KeyedLocks

end Scrutiny
