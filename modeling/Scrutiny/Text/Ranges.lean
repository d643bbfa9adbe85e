/-!
# Ranges

A set of characters as a table of code point ranges in increasing order, and
membership in it by bisection.
-/

namespace Scrutiny.Text

/-- Closed ranges of code points, in increasing order and apart from each other. -/
abbrev Ranges := Array (Nat × Nat)

namespace Ranges

/-- Whether `n` lies in a range of `table` whose index is in `lo`, …, `hi - 1`. -/
def search (table : Ranges) (n lo hi : Nat) : Bool :=
  if lo < hi then
    let mid := (lo + hi) / 2
    match table[mid]? with
    | none => false
    | some (first, last) =>
      if n < first then search table n lo mid
      else if last < n then search table n (mid + 1) hi
      else true
  else false
termination_by hi - lo

/-- Whether the character belongs to the table. -/
def contains (table : Ranges) (c : Char) : Bool :=
  search table c.toNat 0 table.size

end Ranges

end Scrutiny.Text
