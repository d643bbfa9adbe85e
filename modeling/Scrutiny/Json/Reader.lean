import Scrutiny.Decimal.Rounding
import Scrutiny.Json.Value
import Scrutiny.Total

/-!
# Reading JSON

A text is read as one value with blanks around it.  Values may stand inside each other up to
127 levels.  A whole number that needs more than 64 bits becomes a double, and so does a zero
with a minus sign.

An error tells its cause and how much of the text was left when it was noticed.
-/

namespace Scrutiny.Json

open Decimal

/-- Why a text is no JSON value. -/
inductive Cause where
  | endInList
  | endInObject
  | endInString
  | endInValue
  | expectedColon
  | expectedListEnd
  | expectedObjectEnd
  | expectedWord
  | expectedValue
  | badEscape
  | badNumber
  | numberOutOfRange
  | controlCharacter
  | keyNoString
  | loneSurrogate
  | trailingComma
  | trailingCharacters
  | endOfHexEscape
  | tooDeep
  deriving DecidableEq, Repr, Inhabited

/-- The wording of a cause. -/
def Cause.message : Cause → String
  | .endInList => "EOF while parsing a list"
  | .endInObject => "EOF while parsing an object"
  | .endInString => "EOF while parsing a string"
  | .endInValue => "EOF while parsing a value"
  | .expectedColon => "expected \x60:\x60"
  | .expectedListEnd => "expected \x60,\x60 or \x60]\x60"
  | .expectedObjectEnd => "expected \x60,\x60 or \x60\x7d\x60"
  | .expectedWord => "expected ident"
  | .expectedValue => "expected value"
  | .badEscape => "invalid escape"
  | .badNumber => "invalid number"
  | .numberOutOfRange => "number out of range"
  | .controlCharacter => "control character (\\u0000-\\u001F) found while parsing a string"
  | .keyNoString => "key must be a string"
  | .loneSurrogate => "lone leading surrogate in hex escape"
  | .trailingComma => "trailing comma"
  | .trailingCharacters => "trailing characters"
  | .endOfHexEscape => "unexpected end of hex escape"
  | .tooDeep => "recursion limit exceeded"

/-- An error: its cause, the text that was left, and whether the next character is to blame
rather than the last one. -/
structure ReadError where
  /-- The cause. -/
  cause : Cause
  /-- The text that was left. -/
  rest : List Char
  /-- Whether the next character is to blame. -/
  atNext : Bool
  deriving DecidableEq, Repr, Inhabited

/-- What reading some part of a text gives: a value and the text that is left. -/
abbrev Reading (α : Type) := Except ReadError (α × List Char)

/-- An error that the next character is to blame for. -/
def failNext {α : Type} (cause : Cause) (rest : List Char) : Except ReadError α :=
  .error { cause, rest, atNext := true }

/-- An error that the last character is to blame for. -/
def failLast {α : Type} (cause : Cause) (rest : List Char) : Except ReadError α :=
  .error { cause, rest, atNext := false }

/-- The four blanks of the format. -/
def isGap (c : Char) : Bool :=
  c == ' ' || c == '\n' || c == '\t' || c == '\r'

/-- The text after the blanks at its start. -/
def skipGaps (text : List Char) : List Char :=
  text.dropWhile isGap

/-- The value of a digit in base sixteen. -/
def hexValue? (c : Char) : Option Nat :=
  if '0' ≤ c && c ≤ '9' then some (c.toNat - 48)
  else if 'a' ≤ c && c ≤ 'f' then some (c.toNat - 87)
  else if 'A' ≤ c && c ≤ 'F' then some (c.toNat - 55)
  else none

/-- Whether four bytes of text are left. -/
def hasFourBytes (text : List Char) : Bool :=
  4 ≤ total Char.utf8Size (text.take 4)

/-- Reads four digits in base sixteen. -/
def readHex (text : List Char) : Reading Nat :=
  match text with
  | a :: b :: c :: d :: rest =>
    match hexValue? a, hexValue? b, hexValue? c, hexValue? d with
    | some a, some b, some c, some d => .ok (((a * 16 + b) * 16 + c) * 16 + d, rest)
    | _, _, _, _ => failLast .badEscape rest
  | _ => if hasFourBytes text then failLast .badEscape [] else failLast .endInString []

/-- Reads what follows the letter of a Unicode escape. -/
def readUnicode (text : List Char) : Reading Char :=
  match readHex text with
  | .error e => .error e
  | .ok (n, rest) =>
    if 0xDC00 ≤ n && n ≤ 0xDFFF then failLast .loneSurrogate rest
    else if n < 0xD800 || 0xDBFF < n then .ok (Char.ofNat n, rest)
    else
      match rest with
      | [] => failLast .endInString []
      | '\\' :: [] => failLast .endInString []
      | '\\' :: 'u' :: later =>
        match readHex later with
        | .error e => .error e
        | .ok (m, after) =>
          if m < 0xDC00 || 0xDFFF < m then failLast .loneSurrogate after
          else .ok (Char.ofNat ((n - 0xD800) * 0x400 + (m - 0xDC00) + 0x10000), after)
      | '\\' :: _ :: later => failLast .endOfHexEscape later
      | _ :: later => failLast .endOfHexEscape later

/-- Reads what follows a backslash. -/
def readEscape (text : List Char) : Reading Char :=
  match text with
  | [] => failLast .endInString []
  | c :: rest =>
    match c with
    | '"' => .ok ('"', rest)
    | '\\' => .ok ('\\', rest)
    | '/' => .ok ('/', rest)
    | 'b' => .ok ('\x08', rest)
    | 'f' => .ok ('\x0c', rest)
    | 'n' => .ok ('\n', rest)
    | 'r' => .ok ('\r', rest)
    | 't' => .ok ('\t', rest)
    | 'u' => readUnicode rest
    | _ => failLast .badEscape rest

/-- Reads a string after its first quotation mark; `read` holds what was read, the last
character first. -/
def readString (read : List Char) : (fuel : Nat) → List Char → Reading String
  | 0, text => failLast .endInString text
  | fuel + 1, text =>
    match text with
    | [] => failLast .endInString []
    | '"' :: rest => .ok (String.ofList read.reverse, rest)
    | '\\' :: rest =>
      match readEscape rest with
      | .error e => .error e
      | .ok (c, later) => readString (c :: read) fuel later
    | c :: rest =>
      if c.toNat < 32 then failLast .controlCharacter rest else readString (c :: read) fuel rest

/-- The largest whole number. -/
def maxWhole : Nat := Nat.pow 2 64 - 1

/-- Reads digits into a number as long as it needs no more than 64 bits; counts the digits. -/
def readDigits (n count : Nat) : List Char → Nat × Nat × List Char
  | [] => (n, count, [])
  | c :: rest =>
    if c.isDigit then
      let next := n * 10 + (c.toNat - 48)
      if maxWhole < next then (n, count, c :: rest) else readDigits next (count + 1) rest
    else (n, count, c :: rest)

/-- The double nearest to `10 ^ k`. -/
def powerOfTen (k : Nat) : Nat :=
  nearestDouble (Nat.pow 10 k)

/-- A double divided by `10 ^ k`, in steps of at most `10 ^ 308`. -/
def scaleDown (x k : Nat) : (fuel : Nat) → Nat
  | 0 => x
  | fuel + 1 =>
    if k ≤ 308 then divideDoubles x (powerOfTen k)
    else if x == 0 then x
    else scaleDown (divideDoubles x (powerOfTen 308)) (k - 308) fuel

/-- The double `n * 10 ^ e`, with a rounding after each step; none if it is too large. -/
def scaledDouble? (negative : Bool) (n : Nat) (e : Int) : Option UInt64 :=
  let start := nearestDouble n
  if 0 ≤ e then
    if e ≤ 308 then
      let x := multiplyDoubles start (powerOfTen e.toNat)
      if x == infinity then none else some (signedBits negative x)
    else if n == 0 then some (signedBits negative start)
    else none
  else some (signedBits negative (scaleDown start (-e).toNat ((-e).toNat / 308 + 1)))

/-- The number `n * 10 ^ e`. -/
def makeDouble (negative : Bool) (n : Nat) (e : Int) (rest : List Char) : Reading Number :=
  match scaledDouble? negative n e with
  | some bits => .ok (.double bits, rest)
  | none => failLast .numberOutOfRange rest

/-- The largest exponent that is told apart from larger ones. -/
def maxExponent : Nat := Nat.pow 2 31 - 1

/-- Reads the digits of an exponent; `none` if it is too large. -/
def readExponentDigits (n : Nat) : List Char → Option Nat × List Char
  | [] => (some n, [])
  | c :: rest =>
    if c.isDigit then
      let next := n * 10 + (c.toNat - 48)
      if maxExponent < next then (none, rest) else readExponentDigits next rest
    else (some n, c :: rest)

/-- Reads an exponent after its letter. -/
def readExponent (negative : Bool) (n : Nat) (e : Int) (text : List Char) : Reading Number :=
  let (downward, digits) :=
    match text with
    | '+' :: rest => (false, rest)
    | '-' :: rest => (true, rest)
    | _ => (false, text)
  match digits with
  | [] => failLast .endInValue []
  | c :: rest =>
    if c.isDigit then
      match readExponentDigits (c.toNat - 48) rest with
      | (some k, later) => makeDouble negative n (if downward then e - k else e + k) later
      | (none, later) =>
        if n != 0 && !downward then failLast .numberOutOfRange later
        else .ok (.double (signedBits negative 0), later.dropWhile Char.isDigit)
    else failLast .badNumber rest

/-- Reads what may follow the digits of a double. -/
def readTail (negative : Bool) (n : Nat) (e : Int) (text : List Char) : Reading Number :=
  match text with
  | 'e' :: rest => readExponent negative n e rest
  | 'E' :: rest => readExponent negative n e rest
  | _ => makeDouble negative n e text

/-- Reads a fraction after its point. -/
def readFraction (negative : Bool) (n : Nat) (e : Int) (text : List Char) : Reading Number :=
  let (m, count, rest) := readDigits n 0 text
  let exponent := e - count
  if (rest.head?.map Char.isDigit).getD false then
    -- Digits that no longer fit are left out.
    readTail negative m exponent (rest.dropWhile Char.isDigit)
  else if count == 0 then
    match rest with
    | [] => failNext .endInValue []
    | _ => failNext .badNumber rest
  else readTail negative m exponent rest

/-- Reads what follows the whole digits of a number. -/
def readNumberTail (negative : Bool) (n : Nat) (text : List Char) : Reading Number :=
  match text with
  | '.' :: rest => readFraction negative n 0 rest
  | 'e' :: rest => readExponent negative n 0 rest
  | 'E' :: rest => readExponent negative n 0 rest
  | _ =>
    if !negative then .ok (.int n, text)
    else if n == 0 || Nat.pow 2 63 < n then
      .ok (.double (signedBits true (nearestDouble n)), text)
    else .ok (.int (-n), text)

/-- Reads a number after its sign. -/
def readNumber (negative : Bool) (text : List Char) : Reading Number :=
  match text with
  | [] => failLast .endInValue []
  | '0' :: rest =>
    if (rest.head?.map Char.isDigit).getD false then failNext .badNumber rest
    else readNumberTail negative 0 rest
  | c :: rest =>
    if c.isDigit then
      let (n, _, later) := readDigits (c.toNat - 48) 0 rest
      if (later.head?.map Char.isDigit).getD false then
        let extra := (later.takeWhile Char.isDigit).length
        match later.dropWhile Char.isDigit with
        | '.' :: after => readFraction negative n extra after
        | after => readTail negative n extra after
      else readNumberTail negative n later
    else failLast .badNumber rest

/-- Reads the rest of a word. -/
def readWord (value : Json) : (word text : List Char) → Reading Json
  | [], text => .ok (value, text)
  | _ :: _, [] => failLast .endInValue []
  | w :: word, c :: text => if w == c then readWord value word text else failLast .expectedWord text

/-- Reads the items of an array; `first` tells that none was read yet. -/
def readItems (value : List Char → Reading Json) (first : Bool) :
    (fuel : Nat) → List Char → Reading (List Json)
  | 0, text => failNext .endInList text
  | fuel + 1, text =>
    match skipGaps text with
    | [] => failNext .endInList []
    | ']' :: rest => .ok ([], rest)
    | c :: rest =>
      let item (text : List Char) : Reading (List Json) :=
        match value text with
        | .error e => .error e
        | .ok (v, later) =>
          match readItems value false fuel later with
          | .error e => .error e
          | .ok (vs, after) => .ok (v :: vs, after)
      if first then item (c :: rest)
      else if c == ',' then
        match skipGaps rest with
        | [] => failNext .endInValue []
        | ']' :: later => failNext .trailingComma (']' :: later)
        | later => item later
      else failNext .expectedListEnd (c :: rest)

/-- Reads the fields of an object; `first` tells that none was read yet. -/
def readFields (value : List Char → Reading Json) (first : Bool) :
    (fuel : Nat) → List Char → Reading (List (String × Json))
  | 0, text => failNext .endInObject text
  | fuel + 1, text =>
    match skipGaps text with
    | [] => failNext .endInObject []
    | '\x7d' :: rest => .ok ([], rest)
    | c :: rest =>
      let field (text : List Char) : Reading (List (String × Json)) :=
        match readString [] (text.length + 1) text with
        | .error e => .error e
        | .ok (name, later) =>
          match skipGaps later with
          | [] => failNext .endInObject []
          | ':' :: after =>
            match value after with
            | .error e => .error e
            | .ok (v, next) =>
              match readFields value false fuel next with
              | .error e => .error e
              | .ok (fields, last) => .ok ((name, v) :: fields, last)
          | after => failNext .expectedColon after
      if first then
        if c == '"' then field rest else failNext .keyNoString (c :: rest)
      else if c == ',' then
        match skipGaps rest with
        | [] => failNext .endInValue []
        | '"' :: later => field later
        | '\x7d' :: later => failNext .trailingComma ('\x7d' :: later)
        | later => failNext .keyNoString later
      else failNext .expectedObjectEnd (c :: rest)

/-- Reads a value inside of which fewer than `depth` arrays and objects may stand in each
other.  Fields stay as they stand in the text. -/
def readValue : (depth : Nat) → List Char → Reading Json
  | 0, text => failNext .tooDeep text
  | depth + 1, text =>
    match skipGaps text with
    | [] => failNext .endInValue []
    | c :: rest =>
      match c with
      | 'n' => readWord .null "ull".toList rest
      | 't' => readWord (.bool true) "rue".toList rest
      | 'f' => readWord (.bool false) "alse".toList rest
      | '"' => (readString [] (rest.length + 1) rest).map fun (s, later) => (.string s, later)
      | '-' => (readNumber true rest).map fun (n, later) => (.number n, later)
      | '[' =>
        if depth == 0 then failNext .tooDeep (c :: rest)
        else
          (readItems (readValue depth) true (rest.length + 1) rest).map fun (items, later) =>
            (.array items, later)
      | '\x7b' =>
        if depth == 0 then failNext .tooDeep (c :: rest)
        else
          (readFields (readValue depth) true (rest.length + 1) rest).map fun (fields, later) =>
            (.object fields, later)
      | _ =>
        if c.isDigit then (readNumber false (c :: rest)).map fun (n, later) => (.number n, later)
        else failNext .expectedValue (c :: rest)

/-- The number of levels that values may stand inside each other, and one more. -/
def levels : Nat := 128

/-- Reads a whole text as one value, with its fields as they stand. -/
def readFaithfully (text : List Char) : Except ReadError Json :=
  match readValue levels text with
  | .error e => .error e
  | .ok (value, rest) =>
    match skipGaps rest with
    | [] => .ok value
    | later => failNext .trailingCharacters later

/-- Reads a whole text as one value. -/
def read (text : List Char) : Except ReadError Json :=
  (readFaithfully text).map normal

/-- The value of a text, if it has one. -/
def parse? (text : String) : Option Json :=
  (read text.toList).toOption

/-- The line and the column of the place that an error in `text` is noticed at.  Lines count
from one; columns count bytes, from one, up to and including the character to blame. -/
def ReadError.position (error : ReadError) (text : List Char) : Nat × Nat :=
  let consumed := text.take (text.length - error.rest.length)
  let step (place : Nat × Nat) (c : Char) : Nat × Nat :=
    if c == '\n' then (place.1 + 1, 0) else (place.1, place.2 + c.utf8Size)
  let (line, column) := consumed.foldl step (1, 0)
  match error.atNext, error.rest with
  | true, c :: _ => if c == '\n' then (line + 1, 0) else (line, column + 1)
  | _, _ => (line, column)

/-- The wording of an error in `text`. -/
def ReadError.message (error : ReadError) (text : List Char) : String :=
  let (line, column) := error.position text
  error.cause.message ++ " at line " ++ toString line ++ " column " ++ toString column

end Scrutiny.Json
