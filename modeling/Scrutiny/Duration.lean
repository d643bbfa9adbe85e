import Scrutiny.Decimal.Shortest

/-!
# Spans of time

A span of time is a whole number of nanoseconds.  It is written as a number of seconds,
and read from one by rounding to the nearest nanosecond, a half to the even one.
-/

namespace Scrutiny

/-- A span of time. -/
structure Duration where
  /-- Its length in nanoseconds. -/
  nanoseconds : Nat
  deriving DecidableEq, Repr, Inhabited

namespace Duration

/-- The number of nanoseconds in a second. -/
def perSecond : Nat := Nat.pow 10 9

/-- The longest span: as many whole seconds as 64 bits can count, and all but one of the
nanoseconds of another second. -/
def longest : Nat := Nat.pow 2 64 * perSecond - 1

/-- A span of whole milliseconds. -/
def ofMilliseconds (n : Nat) : Duration := ⟨n * Nat.pow 10 6⟩

/-- A span of whole seconds. -/
def ofWholeSeconds (n : Nat) : Duration := ⟨n * perSecond⟩

/-- The whole milliseconds of a span. -/
def milliseconds (d : Duration) : Nat := d.nanoseconds / Nat.pow 10 6

/-- The span `n` times, or the longest span if that is longer. -/
def times (d : Duration) (n : Nat) : Duration := ⟨min (d.nanoseconds * n) longest⟩

/-- The sum of two spans. -/
def add (a b : Duration) : Duration := ⟨a.nanoseconds + b.nanoseconds⟩

/-- The natural number nearest to a quotient; of two that are equally near, the even one. -/
def nearest (q : Decimal.Quotient) : Nat :=
  let low := q.num / q.den
  match compare (2 * (q.num % q.den)) q.den with
  | .lt => low
  | .gt => low + 1
  | .eq => if low % 2 == 0 then low else low + 1

/-- The span of a number of seconds, which is given by the bits of a double.  Negative
numbers count as zero; there is none if the span would be longer than the longest. -/
def ofSeconds? (bits : UInt64) : Option Duration :=
  match Decimal.Double.ofBits bits with
  | .zero _ => some ⟨0⟩
  | .finite true _ => some ⟨0⟩
  | .finite false b =>
    let value := Decimal.Quotient.scaled (b.mantissa * perSecond) b.exponent
    let n := nearest value
    if n ≤ longest then some ⟨n⟩ else none
  | .special => none

/-- The span as a number of seconds. -/
def seconds (d : Duration) : Float :=
  (d.nanoseconds / perSecond).toUInt64.toFloat
    + (d.nanoseconds % perSecond).toUInt64.toFloat / 1e9

end Duration

end Scrutiny
