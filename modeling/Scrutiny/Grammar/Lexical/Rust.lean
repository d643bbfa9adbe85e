import Scrutiny.Grammar.Scan
import Scrutiny.Text.Letter

/-!
# Tokens of Rust

Blanks, comments that may be nested, words, numbers, strings, characters and lifetimes.
-/

namespace Scrutiny.Grammar.Rust

open Scrutiny.Text

/-! ### Blanks and comments -/

/-- The offset after the end of a block comment that is `depth` comments deep. -/
def blockEnd? (text : Array Char) (depth i : Nat) : Option Nat :=
  if h : i < text.size then
    if text[i] == '*' && charAt text (i + 1) (· == '/') then
      match depth with
      | 0 => some (i + 2)
      | outer + 1 => blockEnd? text outer (i + 2)
    else if text[i] == '/' && charAt text (i + 1) (· == '*') then
      blockEnd? text (depth + 1) (i + 2)
    else blockEnd? text depth (i + 1)
  else none
termination_by text.size - i

/-- The offset after a comment that starts at `i`. -/
def commentEnd? (text : Array Char) (i : Nat) : Option Nat :=
  if wordAt text i ['/', '/'] then some (endOfLine text (i + 2))
  else if wordAt text i ['/', '*'] then blockEnd? text 0 (i + 2)
  else none

/-- The next token: steps over blanks and comments. -/
def skip (text : Array Char) (i : Nat) : Nat :=
  if h : i < text.size then
    if isSpace text[i] then skip text (i + 1)
    else
      match commentEnd? text i with
      | some j => if i < j then skip text j else i
      | none => i
  else i
termination_by text.size - i

/-- The line that names an interpreter, at the start of a file. -/
def interpreterLineAt (text : Array Char) (i : Nat) : Option Nat :=
  if i == 0 && wordAt text i ['#', '!'] && !charAt text (i + 2) (· == '[') then
    some (endOfLine text i)
  else none

/-! ### Words -/

/-- Whether a word may start with the character. -/
def startsWord (c : Char) : Bool := c == '_' || isWordStart c

/-- Whether the character may stand in a word. -/
def isWordPart (c : Char) : Bool := c == '_' || isWordContinue c

/-- The offset after a word that starts at `i`, with the mark of a raw word before it. -/
def wordEnd? (text : Array Char) (i : Nat) : Option Nat :=
  let start := if wordAt text i ['r', '#'] then i + 2 else i
  if charAt text start startsWord then some (skipWhile text isWordPart (start + 1)) else none

/-- A word that is not among `reserved`. -/
def nameAt (reserved : List String) (text : Array Char) (i : Nat) : Option Nat :=
  (wordEnd? text i).bind fun stop =>
    if reserved.contains (slice text i stop) then none else some stop

/-- A lifetime or a label. -/
def lifetimeAt (text : Array Char) (i : Nat) : Option Nat :=
  if charAt text i (· == '\'') then
    (wordEnd? text (i + 1)).bind fun stop =>
      if charAt text stop (· == '\'') then none else some stop
  else none

/-! ### Literals -/

/-- Whether the character is a hexadecimal digit. -/
def isHexDigit (c : Char) : Bool :=
  c.isDigit || ('a' ≤ c && c ≤ 'f') || ('A' ≤ c && c ≤ 'F')

/-- The offset after what a backslash at `i` escapes. -/
def escapeEnd? (text : Array Char) (i : Nat) : Option Nat :=
  match text[i + 1]? with
  | none => none
  | some 'x' =>
    if charAt text (i + 2) isHexDigit && charAt text (i + 3) isHexDigit then some (i + 4) else none
  | some 'u' =>
    if charAt text (i + 2) (· == '\x7b') then
      let stop := skipWhile text isHexDigit (i + 3)
      if i + 3 < stop && charAt text stop (· == '\x7d') then some (stop + 1) else none
    else if (List.range 4).all fun k => charAt text (i + 2 + k) isHexDigit then some (i + 6)
    else none
  | some _ => some (i + 2)

/-- The offset after the quotation mark that closes a string. -/
def stringEnd? (text : Array Char) (i : Nat) : Option Nat :=
  if h : i < text.size then
    if text[i] == '"' then some (i + 1)
    else if text[i] == '\\' then
      match escapeEnd? text i with
      | some j => if i < j then stringEnd? text j else none
      | none => none
    else stringEnd? text (i + 1)
  else none
termination_by text.size - i

/-- The offset after a quotation mark with `hashes` hash marks after it. -/
def rawStringEnd? (text : Array Char) (hashes i : Nat) : Option Nat :=
  if h : i < text.size then
    if text[i] == '"' && wordAt text (i + 1) (List.replicate hashes '#') then
      some (i + 1 + hashes)
    else rawStringEnd? text hashes (i + 1)
  else none
termination_by text.size - i

/-- A string: plain, of bytes, or raw. -/
def stringAt (text : Array Char) (i : Nat) : Option Nat :=
  let start := if charAt text i (fun c => c == 'b' || c == 'c') then i + 1 else i
  if charAt text start (· == '"') then stringEnd? text (start + 1)
  else if charAt text start (· == 'r') then
    let quote := skipWhile text (· == '#') (start + 1)
    if charAt text quote (· == '"') then rawStringEnd? text (quote - start - 1) (quote + 1)
    else none
  else none

/-- A character between quotation marks. -/
def characterAt (text : Array Char) (i : Nat) : Option Nat :=
  let start := if charAt text i (· == 'b') then i + 1 else i
  if charAt text start (· == '\'') then
    let stop :=
      if charAt text (start + 1) (· == '\\') then escapeEnd? text (start + 1)
      else if charAt text (start + 1) (· == '\'') then some (start + 1)
      else some (start + 2)
    stop.bind fun stop => if charAt text stop (· == '\'') then some (stop + 1) else none
  else none

/-- The offset after digits of the class `isDigit` and underscores. -/
def digitsEnd (text : Array Char) (isDigit : Char → Bool) (i : Nat) : Nat :=
  skipWhile text (fun c => isDigit c || c == '_') i

/-- The names of types that may follow a number. -/
def numberTypes : List String :=
  ["u8", "i8", "u16", "i16", "u32", "i32", "u64", "i64", "u128", "i128", "isize", "usize", "f32",
    "f64"]

/-- The offset after the name of a type at the end of a number, or `i` if there is none. -/
def numberTypeEnd (text : Array Char) (i : Nat) : Nat :=
  match numberTypes.find? fun type => wordAt text i type.toList with
  | some type => i + type.length
  | none => i

/-- An integer without a fraction. -/
def integerAt (text : Array Char) (i : Nat) : Option Nat :=
  let based (isDigit : Char → Bool) : Option Nat :=
    let stop := digitsEnd text isDigit (i + 2)
    if i + 2 < stop then some (numberTypeEnd text stop) else none
  if wordAt text i ['0', 'x'] then based isHexDigit
  else if wordAt text i ['0', 'b'] then based (fun c => c == '0' || c == '1')
  else if wordAt text i ['0', 'o'] then based (fun c => '0' ≤ c && c ≤ '7')
  else if charAt text i Char.isDigit then
    some (numberTypeEnd text (digitsEnd text Char.isDigit i))
  else none

/-- A number.  A point belongs to it unless a range or the name of a member follows. -/
def numberAt (text : Array Char) (i : Nat) : Option Nat :=
  let isBased := charAt text i (· == '0')
    && charAt text (i + 1) (fun c => c == 'x' || c == 'b' || c == 'o')
  if isBased then integerAt text i
  else if charAt text i Char.isDigit then
    let whole := digitsEnd text Char.isDigit i
    let fraction :=
      if charAt text whole (· == '.')
          && !charAt text (whole + 1) (fun c => c == '.' || startsWord c) then
        digitsEnd text Char.isDigit (whole + 1)
      else whole
    let mantissa :=
      if charAt text fraction (fun c => c == 'e' || c == 'E') then
        let j := if charAt text (fraction + 1) (fun c => c == '+' || c == '-') then fraction + 2
          else fraction + 1
        let stop := digitsEnd text Char.isDigit j
        if j < stop then stop else fraction
      else fraction
    some (numberTypeEnd text mantissa)
  else none

/-- The characters that are tokens of their own in the arguments of a macro. -/
def macroSigns : List Char := "+-*/%^!&|<>=@.,;:#?$'~".toList

/-- Any token that is no bracket, as the arguments of a macro hold them. -/
def macroTokenAt (text : Array Char) (i : Nat) : Option Nat :=
  (stringAt text i).or ((characterAt text i).or ((numberAt text i).or ((wordEnd? text i).or
    (if charAt text i (macroSigns.contains ·) then some (i + 1) else none))))

end Scrutiny.Grammar.Rust
