import Scrutiny.Text.Lines
import Scrutiny.Text.Utf8

/-!
# Lines by bytes

Where the lines of a text begin and end among its bytes.  The offsets of a `LineIndex` count
characters; those of a `ByteIndex` count bytes, so one of them may stand inside a character.
Line feeds are looked for among the bytes, and the line of a byte by bisection among the starts
of the lines.  Nothing is found for a line that the text does not have, or between two offsets one
of which stands inside a character.
-/

namespace Scrutiny.Text

/-- The place of a number among increasing ones. -/
inductive Bisection where
  /-- The number is the one with this index. -/
  | found (index : Nat)
  /-- The number is none of them, and comes before the one with this index. -/
  | before (index : Nat)
  deriving DecidableEq, Repr

/-- The place of `n` among `numbers` if those in front of the index `lo` are smaller and those
from the index `hi` on are larger. -/
def bisect (numbers : Array Nat) (n lo hi : Nat) : Bisection :=
  if lo < hi then
    let mid := (lo + hi) / 2
    match numbers[mid]? with
    | none => .before lo
    | some number =>
      if number < n then bisect numbers n (mid + 1) hi
      else if n < number then bisect numbers n lo mid
      else .found mid
  else .before lo
termination_by hi - lo

/-- A text with the offsets of the bytes at which its lines start. -/
structure ByteIndex where
  /-- The text. -/
  text : String
  /-- The offset of the first byte of each line. -/
  starts : Array Nat

namespace ByteIndex

/-- The offsets after the line feeds among bytes the first of which has the offset `i`. -/
def startsFrom (i : Nat) (bytes : List UInt8) : List Nat :=
  ((bytes.zipIdx i).filter (·.1 == 0x0a)).map (·.2 + 1)

/-- The index of a text. -/
def ofText (text : String) : ByteIndex :=
  { text, starts := (0 :: startsFrom 0 (bytesOf text)).toArray }

/-- The number of lines. -/
def lineCount (index : ByteIndex) : Nat :=
  index.starts.size

/-- The offset of the first byte of a line. -/
def lineStart? (index : ByteIndex) (line : Nat) : Option Nat :=
  index.starts[line]?

/-- The offset after the last byte of a line, its line feed and a carriage return before that
not included. -/
def lineEnd? (index : ByteIndex) (line : Nat) : Option Nat := do
  let start ← index.lineStart? line
  let stop :=
    match index.lineStart? (line + 1) with
    | some next => next - 1
    | none => index.text.utf8ByteSize
  return if start < stop && (bytesOf index.text)[stop - 1]? == some 0x0d then stop - 1 else stop

/-- The text from one offset to another, if they are in order and neither stands inside a
character or after the end of the text. -/
def slice? (index : ByteIndex) (start stop : Nat) : Option String :=
  if h : start ≤ stop ∧ String.Pos.Raw.IsValid index.text ⟨start⟩
      ∧ String.Pos.Raw.IsValid index.text ⟨stop⟩ then
    some (String.extract ⟨⟨start⟩, h.2.1⟩ ⟨⟨stop⟩, h.2.2⟩)
  else none

/-- The text of a line. -/
def line? (index : ByteIndex) (line : Nat) : Option String := do
  index.slice? (← index.lineStart? line) (← index.lineEnd? line)

/-- The line that the byte at an offset belongs to. -/
def lineOf? (index : ByteIndex) (offset : Nat) : Option Nat :=
  match bisect index.starts offset 0 index.starts.size with
  | .found line => some line
  | .before 0 => none
  | .before (next + 1) => some next

end ByteIndex

end Scrutiny.Text
