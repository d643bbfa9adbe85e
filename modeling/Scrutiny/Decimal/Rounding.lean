import Scrutiny.Decimal.Shortest

/-!
# Rounding to doubles

The double nearest to a quotient, and with it the product and the quotient of two doubles.  Of two
doubles that are equally near the one whose last bit is zero is taken.

Doubles have no sign here.  They are given by their bits, whose order is that of the doubles.
-/

namespace Scrutiny.Decimal

/-- The bits of the infinity. -/
def infinity : Nat := 2047 * Nat.pow 2 52

/-- How many of the smallest doubles make one. -/
@[irreducible] def unitsOfOne : Nat := Nat.pow 2 1074

namespace Quotient

/-- The product of two quotients. -/
def mul (a b : Quotient) : Quotient := { num := a.num * b.num, den := a.den * b.den }

/-- A quotient divided by another one. -/
def div (a b : Quotient) : Quotient := { num := a.num * b.den, den := a.den * b.num }

/-- The natural number nearest to a quotient; of two equally near ones the even one. -/
def nearest (q : Quotient) : Nat :=
  let twice := 2 * (q.num % q.den)
  if q.den < twice || (q.den == twice && q.floor % 2 == 1) then q.floor + 1 else q.floor

/-- A quotient in units of the smallest double. -/
def inUnits (q : Quotient) : Quotient := { q with num := q.num * unitsOfOne }

/-- The exponent of two of the step between the doubles around a quotient, in these units. -/
def step (q : Quotient) : Nat := Nat.log2 q.inUnits.floor - 52

/-- A quotient in steps between the doubles around it. -/
def inSteps (q : Quotient) : Quotient := { q.inUnits with den := q.den * Nat.pow 2 q.step }

/-- The bits of the double nearest to a quotient. -/
def toBits (q : Quotient) : Nat :=
  min infinity (q.step * Nat.pow 2 52 + q.inSteps.nearest)

/-- The double with the given bits, as a quotient. -/
def ofBits (bits : Nat) : Quotient :=
  let fraction := bits % Nat.pow 2 52
  let exponent := bits / Nat.pow 2 52
  { num := if exponent = 0 then fraction else (Nat.pow 2 52 + fraction) * Nat.pow 2 (exponent - 1)
    den := unitsOfOne }

end Quotient

/-- The product of two doubles. -/
def multiplyDoubles (a b : Nat) : Nat :=
  ((Quotient.ofBits a).mul (.ofBits b)).toBits

/-- A double divided by another one. -/
def divideDoubles (a b : Nat) : Nat :=
  ((Quotient.ofBits a).div (.ofBits b)).toBits

/-- The double nearest to a natural number. -/
def nearestDouble (n : Nat) : Nat :=
  Quotient.toBits { num := n, den := 1 }

/-- The bits of a double with its sign. -/
def signedBits (negative : Bool) (bits : Nat) : UInt64 :=
  .ofNat (if negative then bits + Nat.pow 2 63 else bits)

end Scrutiny.Decimal
