/-!
# Shortest decimals

The decimal with the fewest digits among those that are rounded to a given binary number,
and of those with equally few the one nearest to it.

A positive binary number is `mantissa * 2 ^ exponent`.  The decimals that are rounded to it
fill an interval that reaches half way to its neighbours; the ends belong to it if the
mantissa is even.
-/

namespace Scrutiny.Decimal

/-- A positive binary number. -/
structure Binary where
  /-- The mantissa. -/
  mantissa : Nat
  /-- The exponent of two. -/
  exponent : Int
  /-- Whether the neighbour below is only half as far away as the one above. -/
  narrowBelow : Bool
  deriving DecidableEq, Repr, Inhabited

/-- A positive decimal `digits * 10 ^ exponent`. -/
structure Scaled where
  /-- The digits, read as a number. -/
  digits : Nat
  /-- The exponent of ten. -/
  exponent : Int
  deriving DecidableEq, Repr, Inhabited

/-- A quotient of two natural numbers. -/
structure Quotient where
  /-- The dividend. -/
  num : Nat
  /-- The divisor. -/
  den : Nat
  deriving DecidableEq, Repr, Inhabited

namespace Quotient

/-- `n * 2 ^ e`. -/
def scaled (n : Nat) (e : Int) : Quotient :=
  if 0 ≤ e then { num := n * Nat.pow 2 e.toNat, den := 1 } else { num := n, den := Nat.pow 2 (-e).toNat }

/-- The quotient divided by `10 ^ e`. -/
def shift (q : Quotient) (e : Int) : Quotient :=
  if 0 ≤ e then { q with den := q.den * Nat.pow 10 e.toNat } else { q with num := q.num * Nat.pow 10 (-e).toNat }

/-- The largest natural number that is not above the quotient. -/
def floor (q : Quotient) : Nat := q.num / q.den

/-- How the natural number `n` compares with the quotient. -/
def compareNat (q : Quotient) (n : Nat) : Ordering := compare (n * q.den) q.num

end Quotient

namespace Binary

/-- Four times the mantissa, so that the ends of the interval are whole too. -/
def value (b : Binary) : Quotient := .scaled (4 * b.mantissa) (b.exponent - 2)

/-- The lower end of the interval. -/
def low (b : Binary) : Quotient :=
  .scaled (4 * b.mantissa - (if b.narrowBelow then 1 else 2)) (b.exponent - 2)

/-- The upper end of the interval. -/
def high (b : Binary) : Quotient := .scaled (4 * b.mantissa + 2) (b.exponent - 2)

/-- Whether `n * 10 ^ e` is rounded to the number. -/
def accepts (b : Binary) (n : Nat) (e : Int) : Bool :=
  let above := (b.low.shift e).compareNat n
  let below := (b.high.shift e).compareNat n
  let even := b.mantissa % 2 == 0
  (above == .gt || (even && above == .eq)) && (below == .lt || (even && below == .eq))

end Binary

/-- The number of decimal digits of `n`, counted up to `fuel`. -/
def digitCount : (fuel : Nat) → Nat → Nat
  | 0, _ => 0
  | fuel + 1, n => if n < 10 then 1 else digitCount fuel (n / 10) + 1

/-- The smallest `j` from `i` on for which the quotient times `10 ^ j` is at least one. -/
def leadingZeros (q : Quotient) : (fuel i : Nat) → Nat
  | 0, i => i
  | fuel + 1, i => if q.den ≤ q.num * Nat.pow 10 i then i else leadingZeros q fuel (i + 1)

/-- The exponent of ten of the first digit of a quotient. -/
def magnitude (q : Quotient) : Int :=
  if q.den ≤ q.num then (digitCount 400 q.floor : Int) - 1 else -(leadingZeros q 400 1 : Int)

/-- The nearest multiple of `10 ^ e` next to the number that is rounded to it. -/
def candidate? (b : Binary) (e : Int) : Option Nat :=
  let q := b.value.shift e
  let lower := q.floor
  let upper := lower + 1
  match b.accepts lower e, b.accepts upper e with
  | true, true =>
    -- Twice the distance to the lower one against one whole step.
    match compare (2 * (q.num - lower * q.den)) q.den with
    | .lt => some lower
    | .gt => some upper
    | .eq => some (if lower % 2 == 0 then lower else upper)
  | true, false => some lower
  | false, true => some upper
  | false, false => none

/-- The shortest decimal with at least `17 - fuel` digits. -/
def search (b : Binary) (top : Int) : (fuel : Nat) → Scaled
  | 0 => { digits := (b.value.shift (top - 16)).floor, exponent := top - 16 }
  | fuel + 1 =>
    let e := top - (16 - fuel : Int)
    match candidate? b e with
    | some n => { digits := n, exponent := e }
    | none => search b top fuel

/-- The decimal without zeros at its end. -/
def trimZeros : (fuel : Nat) → Scaled → Scaled
  | 0, d => d
  | fuel + 1, d =>
    if d.digits % 10 == 0 && d.digits != 0 then
      trimZeros fuel { digits := d.digits / 10, exponent := d.exponent + 1 }
    else d

/-- The shortest decimal that is rounded to the number. -/
def shortest (b : Binary) : Scaled :=
  trimZeros 20 (search b (magnitude b.value) 17)

/-- A double: a sign and what it signs. -/
inductive Double where
  /-- Zero. -/
  | zero (negative : Bool)
  /-- A finite number other than zero. -/
  | finite (negative : Bool) (magnitude : Binary)
  /-- An infinity, or not a number. -/
  | special
  deriving DecidableEq, Repr, Inhabited

/-- What the 64 bits of a double stand for. -/
def Double.ofBits (bits : UInt64) : Double :=
  let n := bits.toNat
  let negative := n / Nat.pow 2 63 == 1
  let exponent : Nat := n / Nat.pow 2 52 % 2048
  let fraction := n % Nat.pow 2 52
  if exponent == 2047 then .special
  else if exponent == 0 then
    if fraction == 0 then .zero negative
    else .finite negative { mantissa := fraction, exponent := -1074, narrowBelow := false }
  else
    .finite negative
      { mantissa := Nat.pow 2 52 + fraction, exponent := (exponent : Int) - 1075,
        narrowBelow := fraction == 0 && 1 < exponent }

end Scrutiny.Decimal
