import Scrutiny.Text.Lines
import Scrutiny.Text.Whole

/-!
# Permits

A bound on how many requests may be under way at the same time.  Whoever wants to send a
request waits for a permit; permits are granted in the order in which they were asked for,
and handed on when they are released.

Two gauges tell how many permits are out and how many are waited for.  They are kept beside the
permits and the requests themselves.
-/

namespace Scrutiny

open Text

/-- The largest bound. -/
def maxConcurrency : Nat := 32

/-- The bound if none is given. -/
def defaultConcurrency : Nat := 4

/-- The nearest admissible bound. -/
def clampConcurrency (n : Nat) : Nat :=
  max 1 (min n maxConcurrency)

/-- The bound that a text asks for, or the default if it asks for none. -/
def readConcurrency (text : Option String) (default : Nat) : Nat :=
  let asked := text.bind fun t => (readWhole 64 (trim t.toList)).toOption
  clampConcurrency (asked.getD default)

/-- The permits of a run, and who holds them or waits for them. -/
structure Permits (ι : Type) where
  /-- How many permits there are. -/
  limit : Nat
  /-- Who holds a permit. -/
  held : List ι
  /-- Who waits for a permit, the longest waiting first. -/
  waiting : List ι
  /-- The gauge of the permits that are out. -/
  inFlight : Nat
  /-- The gauge of the requests for a permit that are not granted yet. -/
  waiters : Nat
  deriving DecidableEq, Repr

namespace Permits

variable {ι : Type}

/-- As many permits as the bound admits, all of them free. -/
def ofLimit (limit : Nat) : Permits ι :=
  { limit := clampConcurrency limit, held := [], waiting := [], inFlight := 0, waiters := 0 }

/-- Hands a free permit to the one who waits longest. -/
def grant (permits : Permits ι) : Permits ι :=
  match permits.waiting with
  | next :: rest =>
    if permits.held.length < permits.limit then
      { permits with
        held := permits.held ++ [next]
        waiting := rest
        inFlight := permits.inFlight + 1
        waiters := permits.waiters - 1 }
    else permits
  | [] => permits

/-- Asks for a permit. -/
def ask (permits : Permits ι) (id : ι) : Permits ι :=
  { permits with waiting := permits.waiting ++ [id], waiters := permits.waiters + 1 }

/-- Asks for a permit and takes it if one is free. -/
def acquire (permits : Permits ι) (id : ι) : Permits ι :=
  (permits.ask id).grant

/-- Gives a permit back, and hands it on. -/
def release [DecidableEq ι] (permits : Permits ι) (id : ι) : Permits ι :=
  if id ∈ permits.held then
    { permits with held := permits.held.erase id, inFlight := permits.inFlight - 1 }.grant
  else permits

/-- Gives up waiting for a permit.  The gauge still counts the request. -/
def giveUp [DecidableEq ι] (permits : Permits ι) (id : ι) : Permits ι :=
  { permits with waiting := permits.waiting.erase id }

/-- Grants a free permit to the request at a position; none if no permit is free. -/
def grantAt? (permits : Permits ι) (i : Nat) : Option (Permits ι) := do
  let id ← permits.waiting[i]?
  if permits.held.length < permits.limit then
    some { permits with
      held := permits.held ++ [id]
      waiting := permits.waiting.eraseIdx i
      inFlight := permits.inFlight + 1
      waiters := permits.waiters - 1 }
  else none

/-- Gives the permit at a position back, and leaves it free. -/
def dropAt? (permits : Permits ι) (i : Nat) : Option (Permits ι) :=
  if i < permits.held.length then
    some { permits with held := permits.held.eraseIdx i, inFlight := permits.inFlight - 1 }
  else none

/-- Cancels the request at a position.  The gauge still counts it. -/
def cancelAt? (permits : Permits ι) (i : Nat) : Option (Permits ι) :=
  if i < permits.waiting.length then
    some { permits with waiting := permits.waiting.eraseIdx i }
  else none

/-- What can happen to permits.  Somebody may ask several times, so permits and requests are told by
their positions. -/
inductive Step (ι : Type) where
  /-- Somebody asks for a permit. -/
  | ask (id : ι)
  /-- A free permit is granted to any of those who wait. -/
  | grant (i : Nat)
  /-- A permit is given back. -/
  | drop (i : Nat)
  /-- A request that was not granted yet is cancelled. -/
  | cancel (i : Nat)
  deriving DecidableEq, Repr

/-- Whether a request is cancelled in a step. -/
def Step.isCancel : Step ι → Bool
  | .cancel _ => true
  | _ => false

/-- The permits after a step; none if the step is not possible. -/
def step? (permits : Permits ι) : Step ι → Option (Permits ι)
  | .ask id => some (permits.ask id)
  | .grant i => permits.grantAt? i
  | .drop i => permits.dropAt? i
  | .cancel i => permits.cancelAt? i

/-- The permits after some steps; none if one of them is not possible. -/
def run? (permits : Permits ι) : List (Step ι) → Option (Permits ι)
  | [] => some permits
  | step :: rest => (permits.step? step).bind (run? · rest)

end Permits

end Scrutiny
