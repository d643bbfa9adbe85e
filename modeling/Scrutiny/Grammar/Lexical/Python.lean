import Scrutiny.Grammar.Scan
import Scrutiny.Text.Lines
import Scrutiny.Text.Letter

/-!
# Tokens of Python

Blanks, indentation, numbers and strings.  The end of a line is a token only where a
statement may end; elsewhere line feeds are blanks like any other.  A block is opened
by a line that is indented more than the block around it, and closed before the first
line that is indented less than the block itself; comments that are indented like the
block still belong to it.
-/

namespace Scrutiny.Grammar.Python

open Scrutiny.Text

/-- The offset after a backslash that joins its line to the next one, if one is at `i`. -/
def joinedLine? (text : Array Char) (i : Nat) : Option Nat :=
  if charAt text i (· == '\\') then
    if charAt text (i + 1) (· == '\n') then some (i + 2)
    else if wordAt text (i + 1) ['\r', '\n'] then some (i + 3)
    else none
  else none

/-- The next token on any line: steps over blanks, comments and joined lines. -/
def skipFree (text : Array Char) (i : Nat) : Nat :=
  if h : i < text.size then
    if isSpace text[i] then skipFree text (i + 1)
    else if text[i] == '#' then
      let stop := endOfLine text i
      if i < stop then skipFree text stop else i
    else
      match joinedLine? text i with
      | some j => if i < j then skipFree text j else i
      | none => i
  else i
termination_by text.size - i

/-- The next token on the same line: stops before a line feed and before a comment. -/
def skipLine (text : Array Char) (i : Nat) : Nat :=
  if h : i < text.size then
    if text[i] != '\n' && isSpace text[i] then skipLine text (i + 1)
    else
      match joinedLine? text i with
      | some j => if i < j then skipLine text j else i
      | none => i
  else i
termination_by text.size - i

/-- What stands between a place and the next line that holds code. -/
structure Layout where
  /-- Whether a line ends in between. -/
  lineEnds : Bool
  /-- The indentation of the line with the next token; a tab counts eight. -/
  width : Nat
  /-- The indentation of the first comment line in between, and the offset after it. -/
  comment : Option (Nat × Nat)
  /-- The offset of the next token. -/
  next : Nat

/-- The layout from `i` on; with `comments` off a comment counts as a token. -/
def layoutFrom (text : Array Char) (comments : Bool) (i : Nat) (soFar : Layout) : Layout :=
  if h : i < text.size then
    let c := text[i]
    if c == '\n' then
      layoutFrom text comments (i + 1) { soFar with lineEnds := true, width := 0 }
    else if c == ' ' then
      layoutFrom text comments (i + 1) { soFar with width := soFar.width + 1 }
    else if c == '\t' then
      layoutFrom text comments (i + 1) { soFar with width := soFar.width + 8 }
    else if c == '\r' || c == '\x0c' then
      layoutFrom text comments (i + 1) { soFar with width := 0 }
    else if c == '#' && comments && soFar.lineEnds then
      let stop := endOfLine text i
      if i < stop then
        layoutFrom text comments stop
          { soFar with comment := soFar.comment.or (some (soFar.width, stop)) }
      else { soFar with next := i }
    else
      match joinedLine? text i with
      | some j => if i < j then layoutFrom text comments j soFar else { soFar with next := i }
      | none => { soFar with next := i }
  else { soFar with lineEnds := true, width := 0, next := i }
termination_by text.size - i

/-- The layout between `i` and the next token. -/
def layoutAt (text : Array Char) (i : Nat) (comments : Bool) : Layout :=
  layoutFrom text comments i { lineEnds := false, width := 0, comment := none, next := i }

/-- The offset after a comment that stands on the same line, or `i` if there is none. -/
def afterComment (text : Array Char) (i : Nat) : Nat :=
  let next := skipLine text i
  if charAt text next (· == '#') then endOfLine text next else i

/-- The end of a line, a comment before it included. -/
def lineEnd : Scanner := fun text cursor =>
  let start := afterComment text cursor.offset
  let layout := layoutAt text start true
  if layout.lineEnds then cursor.upTo start start else .error layout.next

/-- The start of a block: the next line is indented more than the block around it. -/
def indent : Scanner := fun text cursor =>
  let start := afterComment text cursor.offset
  let layout := layoutAt text start true
  match cursor.indents with
  | [] => .error layout.next
  | top :: _ =>
    if layout.lineEnds && top < layout.width then
      .ok { start, after := { offset := start, indents := layout.width :: cursor.indents } }
    else .error layout.next

/-- The end of a block, searched from `i` on: the next line is indented less, and so is
the first comment before it. -/
def dedentFrom (text : Array Char) (indents : List Nat) (i : Nat) : Except Nat Token :=
  let layout := layoutAt text i true
  match indents with
  | [] => .error layout.next
  | top :: rest =>
    if layout.lineEnds && layout.width < top then
      match layout.comment with
      | none => .ok { start := i, after := { offset := i, indents := rest } }
      | some (width, stop) =>
        if width < top then .ok { start := i, after := { offset := i, indents := rest } }
        else if i < stop ∧ stop ≤ text.size then dedentFrom text indents stop
        else .error layout.next
    else .error layout.next
termination_by text.size - i

/-- The end of a block. -/
def dedent : Scanner := fun text cursor =>
  dedentFrom text cursor.indents cursor.offset

/-- Whether an operand may follow here although a line ends first: the next line must not
be indented less than the block, unless it starts with a string. -/
def mayContinue (text : Array Char) (cursor : Cursor) : Bool :=
  let layout := layoutAt text cursor.offset false
  match cursor.indents with
  | [] => true
  | top :: _ =>
    !(layout.lineEnds && layout.width < top)
      || charAt text layout.next (fun c => c == '"' || c == '\'')

/-- Whether the next token is on the same line. -/
def sameLine (text : Array Char) (cursor : Cursor) : Bool :=
  let next := skipLine text cursor.offset
  charAt text next (fun c => c != '\n' && c != '#')

/-- The offset after a run of digits and underscores. -/
def digits (text : Array Char) (i : Nat) : Nat :=
  skipWhile text (fun c => c.isDigit || c == '_') i

/-- The offset after an exponent, or `i` if there is none. -/
def exponent (text : Array Char) (i : Nat) : Nat :=
  if charAt text i (fun c => c == 'e' || c == 'E') then
    let j := if charAt text (i + 1) (fun c => c == '+' || c == '-') then i + 2 else i + 1
    if charAt text j Char.isDigit then digits text j else i
  else i

/-- The offset after one character of the class `p`, or `i` if there is none. -/
def optionalChar (text : Array Char) (p : Char → Bool) (i : Nat) : Nat :=
  if charAt text i p then i + 1 else i

/-- A number: an integer in one of four bases, or a decimal fraction. -/
def numberAt (text : Array Char) (i : Nat) : Option Nat :=
  let based (isDigit : Char → Bool) : Option Nat :=
    let stop := skipWhile text (fun c => isDigit c || c == '_') (i + 2)
    if i + 2 < stop then some (optionalChar text (fun c => c == 'l' || c == 'L') stop) else none
  let isHex (c : Char) := c.isDigit || ('a' ≤ c && c ≤ 'f') || ('A' ≤ c && c ≤ 'F')
  let isImaginary (c : Char) := c == 'j' || c == 'J'
  if charAt text i Char.isDigit then
    let special :=
      if charAt text i (· == '0') then
        if charAt text (i + 1) (fun c => c == 'x' || c == 'X') then based isHex
        else if charAt text (i + 1) (fun c => c == 'o' || c == 'O') then
          based (fun c => '0' ≤ c && c ≤ '7')
        else if charAt text (i + 1) (fun c => c == 'b' || c == 'B') then
          based (fun c => c == '0' || c == '1')
        else none
      else none
    match special with
    | some stop => some stop
    | none =>
      let whole := digits text i
      if charAt text whole (· == '.') then
        some (optionalChar text isImaginary (exponent text (digits text (whole + 1))))
      else
        let stop := exponent text whole
        if whole < stop then some (optionalChar text isImaginary stop)
        else some (optionalChar text (fun c => isImaginary c || c == 'l' || c == 'L') whole)
  else if charAt text i (· == '.') && charAt text (i + 1) Char.isDigit then
    some (optionalChar text isImaginary (exponent text (digits text (i + 1))))
  else none

/-- How a string is delimited. -/
structure Quotes where
  /-- The quotation mark. -/
  mark : Char
  /-- Whether three marks delimit it. -/
  triple : Bool
  /-- Whether backslashes stand for themselves. -/
  raw : Bool
  /-- Whether expressions may stand inside braces. -/
  formatted : Bool
  deriving DecidableEq, Repr

/-- The quotation marks with the letters in front of them, and the offset after them. -/
def quotesAt (text : Array Char) (i : Nat) : Option (Quotes × Nat) :=
  let isOneOf (letters : List Char) (c : Char) := letters.contains c
  let start := skipWhile text (isOneOf ['f', 'F', 'r', 'R', 'b', 'B', 'u', 'U']) i
  let letters := (text.extract i start).toList
  let raw := letters.any (isOneOf ['r', 'R'])
  let formatted := letters.any (isOneOf ['f', 'F'])
  match text[start]? with
  | none => none
  | some mark =>
    if mark == '"' || mark == '\'' then
      if wordAt text start [mark, mark, mark] then
        some ({ mark, triple := true, raw, formatted }, start + 3)
      else some ({ mark, triple := false, raw, formatted }, start + 1)
    else if mark == '\x60' then some ({ mark, triple := false, raw, formatted }, start + 1)
    else none

/-- The offset after the character that a backslash at `i` escapes, or after the backslash
alone where it escapes nothing. -/
def afterEscape (text : Array Char) (raw : Bool) (mark : Char) (i : Nat) : Nat :=
  if raw then optionalChar text (fun c => c == mark || c == '\\' || c == '\n') (i + 1)
  else if wordAt text (i + 1) ['\r', '\n'] then i + 3
  else if wordAt text (i + 1) ['N', '\x7b'] then
    optionalChar text (· == '\x7d') (skipWhile text (· != '\x7d') (i + 3))
  else optionalChar text
    (fun c => c == '"' || c == '\'' || c == '\\' || c == '\n' || c.isAlpha) (i + 1)

/-- Whether the closing marks stand at `i`, and the offset after them. -/
def closingAt (quotes : Quotes) (text : Array Char) (i : Nat) : Option Nat :=
  signAt (if quotes.triple then [quotes.mark, quotes.mark, quotes.mark] else [quotes.mark]) [] text i

/-- The offset at which the plain characters of a string end that start at `i`: before the
closing marks, or before a single brace of a formatted string.  A line feed may only stand
at the start of such a run unless three marks delimit the string. -/
def contentEnd (quotes : Quotes) (text : Array Char) (i : Nat) (fresh : Bool) : Option Nat :=
  if h : i < text.size then
    let c := text[i]
    if (closingAt quotes text i).isSome then some i
    else if c == '\\' then
      let j := afterEscape text quotes.raw quotes.mark i
      if i < j then contentEnd quotes text j (!quotes.raw) else none
    else if quotes.formatted && (c == '\x7b' || c == '\x7d') then
      if charAt text (i + 1) (· == c) then contentEnd quotes text (i + 2) true
      else if c == '\x7b' then some i else none
    else if c == '\n' && !fresh && !quotes.triple then none
    else contentEnd quotes text (i + 1) false
  else none
termination_by text.size - i

/-- A string without expressions inside. -/
def plainStringAt (text : Array Char) (i : Nat) : Option Nat :=
  match quotesAt text i with
  | none => none
  | some (quotes, start) =>
    if quotes.formatted then none
    else (contentEnd quotes text start true).bind (closingAt quotes text)

/-- The start of a string that is delimited by `quotes`. -/
def openingAt (quotes : Quotes) (text : Array Char) (i : Nat) : Option Nat :=
  match quotesAt text i with
  | none => none
  | some (found, start) => if found == quotes then some start else none

/-- A run of plain characters of a formatted string, which may be empty. -/
def contentAt (quotes : Quotes) (text : Array Char) (i : Nat) : Option Nat :=
  contentEnd quotes text i true

/-- The letter that asks for a conversion in a formatted string. -/
def conversionAt (text : Array Char) (i : Nat) : Option Nat :=
  if charAt text i (· == '!') && charAt text (i + 1) Char.isLower then some (i + 2) else none

/-- The plain characters of a format specification. -/
def formatTextAt (text : Array Char) (i : Nat) : Option Nat :=
  let stop := skipWhile text (fun c => c != '\x7b' && c != '\x7d' && c != '\n') i
  if i < stop then some stop else none

end Scrutiny.Grammar.Python
