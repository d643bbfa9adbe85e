import Scrutiny.Grammar.Pattern
import Scrutiny.Text.Lines

/-!
# Scanning

Steps over a text that the scanners of all languages share: runs of characters of a
class, words, and the character at an offset.  The offset after the last character
stands for the end of the text.
-/

namespace Scrutiny.Grammar

open Scrutiny.Text

/-- Blanks between tokens: white space and the invisible marks. -/
def isSpace (c : Char) : Bool :=
  isBlank c || c == '\uFEFF' || c == '\u2060' || c == '\u200B'

/-- The offset after the run of characters of the class `p` that starts at `i`. -/
def skipWhile (text : Array Char) (p : Char → Bool) (i : Nat) : Nat :=
  if h : i < text.size then
    if p text[i] then skipWhile text p (i + 1) else i
  else i
termination_by text.size - i

/-- Whether the character at `i` is of the class `p`; at the end there is none. -/
def charAt (text : Array Char) (i : Nat) (p : Char → Bool) : Bool :=
  match text[i]? with
  | some c => p c
  | none => false

/-- Whether the characters `word` stand at `i`. -/
def wordAt (text : Array Char) (i : Nat) : List Char → Bool
  | [] => true
  | c :: rest => charAt text i (· == c) && wordAt text (i + 1) rest

/-- The offset after the line that `i` is on, its line feed not included. -/
def endOfLine (text : Array Char) (i : Nat) : Nat :=
  skipWhile text (· != '\n') i

/-- The text between two offsets. -/
def slice (text : Array Char) (start stop : Nat) : String :=
  String.ofList (text.extract start stop).toList

/-- The token from `start` to `stop`, with the open blocks unchanged. -/
def Cursor.upTo (cursor : Cursor) (start stop : Nat) : Except Nat Token :=
  .ok { start, after := { cursor with offset := stop } }

/-- A scanner that steps over blanks with `skip` and then takes what `find` accepts:
the offset after the token, if there is one. -/
def lexeme (skip : Array Char → Nat → Nat) (find : Array Char → Nat → Option Nat) : Scanner :=
  fun text cursor =>
    let start := skip text cursor.offset
    match find text start with
    | some stop => cursor.upTo start stop
    | none => .error start

/-- The characters of `sign`, unless one of the characters `without` follows. -/
def signAt (sign : List Char) (without : List Char) (text : Array Char) (i : Nat) : Option Nat :=
  let stop := i + sign.length
  if wordAt text i sign && !charAt text stop (without.contains ·) then some stop else none

/-- The word `word`, unless a character of the class `continues` follows. -/
def keywordAt (continues : Char → Bool) (word : List Char) (text : Array Char) (i : Nat) :
    Option Nat :=
  let stop := i + word.length
  if wordAt text i word && !charAt text stop continues then some stop else none

/-- A word of the given character classes that is not among `reserved`. -/
def identifierAt (starts continues : Char → Bool) (reserved : List String) (text : Array Char)
    (i : Nat) : Option Nat :=
  if charAt text i starts then
    let stop := skipWhile text continues (i + 1)
    if reserved.contains (slice text i stop) then none else some stop
  else none

/-- Succeeds at the end of the text only. -/
def endAt (text : Array Char) (i : Nat) : Option Nat :=
  if text.size ≤ i then some i else none

/-- A check that takes no characters: it succeeds where `test` holds. -/
def guardAt (test : Array Char → Cursor → Bool) : Scanner :=
  fun text cursor =>
    if test text cursor then cursor.upTo cursor.offset cursor.offset else .error cursor.offset

end Scrutiny.Grammar
