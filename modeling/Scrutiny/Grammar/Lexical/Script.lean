import Scrutiny.Grammar.Scan

/-!
# Tokens of scripts

Blanks, words, numbers, strings, templates and regular expressions of JavaScript and of
its typed dialects, and the places where a statement ends without a semicolon.

A statement may end before a line feed unless the next line starts with something that
goes on with it.  Comments take part in this: one that stands on the line where the
statement ends may belong to the statement.
-/

namespace Scrutiny.Grammar.Script

open Scrutiny.Text

/-- What a dialect admits beyond the common language. -/
structure Dialect where
  /-- Whether types may be written. -/
  types : Bool
  /-- Whether markup may stand in expressions. -/
  markup : Bool
  deriving DecidableEq, Repr, Inhabited

/-! ### Blanks and comments -/

/-- Whether the character ends a line. -/
def endsLine (c : Char) : Bool :=
  c == '\n' || c == '\u2028' || c == '\u2029'

/-- The offset after the next end of a block comment. -/
def blockEnd? (text : Array Char) (i : Nat) : Option Nat :=
  if h : i < text.size then
    if text[i] == '*' && charAt text (i + 1) (· == '/') then some (i + 2)
    else blockEnd? text (i + 1)
  else none
termination_by text.size - i

/-- The offset after a comment that starts at `i`. -/
def commentEnd? (text : Array Char) (i : Nat) : Option Nat :=
  if wordAt text i ['/', '/'] then
    some (skipWhile text (fun c => !endsLine c && c != '\r') (i + 2))
  else if wordAt text i ['/', '*'] then blockEnd? text (i + 2)
  else none

/-- The next token: steps over blanks and comments. -/
def skip (text : Array Char) (i : Nat) : Nat :=
  if h : i < text.size then
    if isSpace text[i] then skip text (i + 1)
    else
      match commentEnd? text i with
      | some j => if i < j then skip text j else i
      | none => i
  else i
termination_by text.size - i

/-- The line that names an interpreter, at the start of a file. -/
def interpreterLineAt (text : Array Char) (i : Nat) : Option Nat :=
  if i == 0 && wordAt text i ['#', '!'] then some (endOfLine text i) else none

/-! ### Words -/

/-- The characters that stand for themselves and so are no part of a word. -/
def signs : List Char := ":;\x60\"'@#.,|^&<=>+-*/\\%?!~()[]\x7b\x7d".toList

/-- Whether the character may stand in a word. -/
def isWordPart (c : Char) : Bool :=
  31 < c.toNat && !isSpace c && !signs.contains c

/-- Whether the character is a hexadecimal digit. -/
def isHexDigit (c : Char) : Bool :=
  c.isDigit || ('a' ≤ c && c ≤ 'f') || ('A' ≤ c && c ≤ 'F')

/-- The offset after the number of a character that follows the letter `u` of an escape: four
digits, or any number of digits in braces. -/
def codePointEnd? (text : Array Char) (i : Nat) : Option Nat :=
  if charAt text i (· == '\x7b') then
    let stop := skipWhile text isHexDigit (i + 1)
    if i + 1 < stop && charAt text stop (· == '\x7d') then some (stop + 1) else none
  else if (List.range 4).all fun k => charAt text (i + k) isHexDigit then some (i + 4)
  else none

/-- The offset after the run of characters of words, escaped ones among them. -/
def wordTail (text : Array Char) (i : Nat) : Nat :=
  if h : i < text.size then
    if isWordPart text[i] then wordTail text (i + 1)
    else if wordAt text i ['\\', 'u'] then
      match codePointEnd? text (i + 2) with
      | some j => if i < j then wordTail text j else i
      | none => i
    else i
  else i
termination_by text.size - i

/-- The offset after a word that starts at `i`. -/
def wordEnd? (text : Array Char) (i : Nat) : Option Nat :=
  if charAt text i Char.isDigit then none
  else
    let stop := wordTail text i
    if i < stop then some stop else none

/-- A word that is not among `reserved`. -/
def nameAt (reserved : List String) (text : Array Char) (i : Nat) : Option Nat :=
  (wordEnd? text i).bind fun stop =>
    if reserved.contains (slice text i stop) then none else some stop

/-- The name of a private member. -/
def privateNameAt (text : Array Char) (i : Nat) : Option Nat :=
  if charAt text i (· == '#') then wordEnd? text (i + 1) else none

/-! ### Literals -/

/-- The offset after digits of the class `isDigit` with single underscores between them. -/
def groupedDigits (text : Array Char) (isDigit : Char → Bool) (i : Nat) : Nat :=
  if h : i < text.size then
    if isDigit text[i] then groupedDigits text isDigit (i + 1)
    else if text[i] == '_' && charAt text (i + 1) isDigit then groupedDigits text isDigit (i + 2)
    else i
  else i
termination_by text.size - i

/-- The offset after an exponent, or `i` if there is none. -/
def exponentEnd (text : Array Char) (i : Nat) : Nat :=
  if charAt text i (fun c => c == 'e' || c == 'E') then
    let j := if charAt text (i + 1) (fun c => c == '+' || c == '-') then i + 2 else i + 1
    if charAt text j Char.isDigit then groupedDigits text Char.isDigit j else i
  else i

/-- A number. -/
def numberAt (text : Array Char) (i : Nat) : Option Nat :=
  let based (isDigit : Char → Bool) : Option Nat :=
    if charAt text (i + 2) isDigit then
      let stop := groupedDigits text isDigit (i + 2)
      some (if charAt text stop (· == 'n') then stop + 1 else stop)
    else none
  let baseIs (lower upper : Char) : Bool :=
    charAt text i (· == '0') && charAt text (i + 1) (fun c => c == lower || c == upper)
  if baseIs 'x' 'X' then based isHexDigit
  else if baseIs 'o' 'O' then based (fun c => '0' ≤ c && c ≤ '7')
  else if baseIs 'b' 'B' then based (fun c => c == '0' || c == '1')
  else if charAt text i Char.isDigit then
    let whole := groupedDigits text Char.isDigit i
    if charAt text whole (· == '.') then
      let fraction := if charAt text (whole + 1) Char.isDigit then
        groupedDigits text Char.isDigit (whole + 1) else whole + 1
      some (exponentEnd text fraction)
    else if charAt text whole (· == 'n') then some (whole + 1)
    else some (exponentEnd text whole)
  else if charAt text i (· == '.') && charAt text (i + 1) Char.isDigit then
    some (exponentEnd text (groupedDigits text Char.isDigit (i + 1)))
  else none

/-- The offset after what a backslash at `i` escapes. -/
def escapeEnd? (text : Array Char) (i : Nat) : Option Nat :=
  match text[i + 1]? with
  | none => none
  | some 'x' =>
    if charAt text (i + 2) isHexDigit && charAt text (i + 3) isHexDigit then some (i + 4) else none
  | some 'u' => codePointEnd? text (i + 2)
  | some '\r' => if charAt text (i + 2) endsLine then some (i + 3) else some (i + 2)
  | some _ => some (i + 2)

/-- The offset after the quotation mark that closes a string. -/
def stringEnd? (text : Array Char) (mark : Char) (i : Nat) : Option Nat :=
  if h : i < text.size then
    let c := text[i]
    if c == mark then some (i + 1)
    else if c == '\n' || c == '\r' then none
    else if c == '\\' then
      match escapeEnd? text i with
      | some j => if i < j then stringEnd? text mark j else none
      | none => none
    else stringEnd? text mark (i + 1)
  else none
termination_by text.size - i

/-- A string between quotation marks. -/
def stringAt (text : Array Char) (i : Nat) : Option Nat :=
  match text[i]? with
  | some c => if c == '"' || c == '\'' then stringEnd? text c (i + 1) else none
  | none => none

/-- The plain characters of a template, up to its end or to the next expression in it. -/
def templateTextAt (text : Array Char) (i : Nat) : Option Nat :=
  if h : i < text.size then
    let c := text[i]
    if c == '\x60' || wordAt text i ['$', '\x7b'] then some i
    else if c == '\\' then
      match escapeEnd? text i with
      | some j => if i < j then templateTextAt text j else none
      | none => none
    else templateTextAt text (i + 1)
  else none
termination_by text.size - i

/-- The offset after the slash that closes a regular expression; inside of a class of
characters a slash stands for itself. -/
def regexEnd? (text : Array Char) (inClass : Bool) (i : Nat) : Option Nat :=
  if h : i < text.size then
    let c := text[i]
    if c == '\n' then none
    else if c == '\\' then
      if charAt text (i + 1) (· != '\n') then regexEnd? text inClass (i + 2) else none
    else if c == '[' then regexEnd? text true (i + 1)
    else if c == ']' then regexEnd? text false (i + 1)
    else if c == '/' && !inClass then some (i + 1)
    else regexEnd? text inClass (i + 1)
  else none
termination_by text.size - i

/-- A regular expression with its flags. -/
def regexAt (text : Array Char) (i : Nat) : Option Nat :=
  if charAt text i (· == '/') && !charAt text (i + 1) (fun c => c == '/' || c == '*') then
    (regexEnd? text false (i + 1)).map (skipWhile text Char.isLower)
  else none

/-! ### Markup -/

/-- A name in markup, which may hold hyphens. -/
def markupNameAt (text : Array Char) (i : Nat) : Option Nat :=
  (wordEnd? text i).map (skipWhile text fun c => isWordPart c || c == '-')

/-- A string in markup, which may hold line feeds and knows no escapes. -/
def markupStringAt (text : Array Char) (i : Nat) : Option Nat :=
  match text[i]? with
  | some c =>
    if c == '"' || c == '\'' then
      let stop := skipWhile text (· != c) (i + 1)
      if stop < text.size then some (stop + 1) else none
    else none
  | none => none

/-- The plain text between tags. -/
def markupTextAt (text : Array Char) (i : Nat) : Option Nat :=
  let stop := skipWhile text (fun c => !(['<', '>', '\x7b', '\x7d', '&'].contains c)) i
  if i < stop then some stop else none

/-- The name or number of a character between `&` and a semicolon. -/
def characterReferenceAt (text : Array Char) (i : Nat) : Option Nat :=
  if charAt text i (· == '&') then
    let start := if charAt text (i + 1) (· == '#') then i + 2 else i + 1
    let stop := skipWhile text Char.isAlphanum start
    if start < stop && charAt text stop (· == ';') then some (stop + 1) else none
  else none

/-! ### Ends of statements -/

/-- What stands before the end of a statement. -/
inductive Before where
  /-- An operand: an operator could follow. -/
  | operand
  /-- Something that no operator follows. -/
  | word
  /-- The signature of a function: its body could follow. -/
  | signature
  deriving DecidableEq, Repr, Inhabited

/-- The offset of the next token from `i` on, and whether a line may be taken to end before it.
Without `all` this stops after the first block comment, and then only a line feed inside
of the comment counts.  A slash that starts no comment is refused. -/
def passComments (text : Array Char) (all : Bool) (lineEnded : Bool) (i : Nat) :
    Option (Bool × Nat) :=
  if h : i < text.size then
    if isBlank text[i] then passComments text all lineEnded (i + 1)
    else if wordAt text i ['/', '/'] then
      let stop := skipWhile text (fun c => !endsLine c) (i + 2)
      if i < stop then passComments text all lineEnded stop else none
    else if wordAt text i ['/', '*'] then
      let stop := (blockEnd? text (i + 2)).getD text.size
      let ended := lineEnded || (text.extract i stop).any endsLine
      if !all && !charAt text stop (· == '/') then some (ended, stop)
      else if i < stop then passComments text all ended stop else none
    else if text[i] == '/' then none
    else some (true, i)
  else some (true, i)
termination_by text.size - i

/-- Whether what stands at `i`, on a line of its own, starts a new statement. -/
def startsStatement (dialect : Dialect) (before : Before) (text : Array Char) (i : Nat) : Bool :=
  match text[i]? with
  | none => true
  | some c =>
    if "\x60,:;*%><=?^|&/".toList.contains c then false
    else if c == '.' then !dialect.types && charAt text (i + 1) Char.isDigit
    else if c == '(' || c == '[' then dialect.types && before != .operand
    else if c == '\x7b' then !(dialect.types && before == .signature)
    else if c == '+' || c == '-' then charAt text (i + 1) (· == c)
    else if c == '!' then !charAt text (i + 1) (· == '=')
    else if wordAt text i ['i', 'n'] then
      if !charAt text (i + 2) Char.isAlpha then false
      else if wordAt text (i + 2) "stanceof".toList then charAt text (i + 10) Char.isAlpha
      else true
    else true

/-- Whether a statement may end at `i` without a semicolon. -/
def endsStatement (dialect : Dialect) (before : Before) (text : Array Char) (i : Nat) : Bool :=
  if h : i < text.size then
    let c := text[i]
    if c == '\x7d' then true
    else if endsLine c then
      match passComments text true false (i + 1) with
      | some (_, j) => startsStatement dialect before text j
      | none => false
    else if isBlank c then endsStatement dialect before text (i + 1)
    else if c == '/' && !dialect.types then
      match passComments text false false i with
      | none => false
      | some (ended, j) =>
        if ended && before != .operand && !charAt text j (fun c => c == ',' || c == '=') then true
        else if i < j ∧ j < text.size then endsStatement dialect before text j
        else false
    else false
  else true
termination_by text.size - i

/-- The place where a statement ends without a semicolon: where it stands, or after comments
that follow it. -/
def statementEnd? (dialect : Dialect) (before : Before) (text : Array Char) (i : Nat) :
    Option Nat :=
  if endsStatement dialect before text i then some i
  else
    match commentEnd? text (skipWhile text isSpace i) with
    | some j => if i < j ∧ i < text.size then statementEnd? dialect before text j else none
    | none => none
termination_by text.size - i

/-- The end of a statement that is not written. -/
def impliedEnd (dialect : Dialect) (before : Before) : Scanner := fun text cursor =>
  match statementEnd? dialect before text cursor.offset with
  | some stop => cursor.upTo stop stop
  | none => .error (skip text cursor.offset)

/-- Whether the next token is on the same line. -/
def sameLine (text : Array Char) (cursor : Cursor) : Bool :=
  !(text.extract cursor.offset (skip text cursor.offset)).any endsLine

/-! ### Looking ahead over brackets -/

/-- How far a look over brackets has come. -/
structure Balance where
  /-- The offset that is reached. -/
  offset : Nat
  /-- The brackets that are open, the innermost first; a template and an expression in it are
  opened by its mark and by a dollar sign. -/
  opened : List Char
  /-- Whether an operand was just read, so that a slash divides. -/
  operand : Bool

/-- Words after which an operand follows. -/
def wordsBeforeOperand : List String :=
  ["return", "typeof", "case", "in", "of", "instanceof", "new", "delete", "void", "await", "yield"]

/-- One step over the character `c`. -/
def Balance.step (text : Array Char) (b : Balance) (c : Char) : Balance :=
  let i := b.offset
  if b.opened.head? == some '\x60' then
    if c == '\\' then { b with offset := i + 2 }
    else if c == '\x60' then { offset := i + 1, opened := b.opened.tail, operand := true }
    else if wordAt text i ['$', '\x7b'] then
      { offset := i + 2, opened := '$' :: b.opened, operand := false }
    else { b with offset := i + 1 }
  else if isSpace c then { b with offset := i + 1 }
  else
    match commentEnd? text i with
    | some stop => { b with offset := stop }
    | none =>
      if c == '"' || c == '\'' then
        { b with offset := (stringEnd? text c (i + 1)).getD (i + 1), operand := true }
      else if c == '/' && !b.operand then
        { b with offset := (regexAt text i).getD (i + 1), operand := true }
      else if ['(', '[', '\x7b', '\x60'].contains c then
        { offset := i + 1, opened := c :: b.opened, operand := false }
      else if [')', ']', '\x7d'].contains c then
        { offset := i + 1, opened := b.opened.tail, operand := true }
      else if isWordPart c then
        let stop := wordTail text i
        { b with offset := stop, operand := !wordsBeforeOperand.contains (slice text i stop) }
      else { b with offset := i + 1, operand := false }

/-- The offset after the bracket that closes the ones that are open. -/
def Balance.run (text : Array Char) (b : Balance) : Option Nat :=
  if h : b.offset < text.size then
    if b.opened.isEmpty then some b.offset
    else
      if b.offset < (b.step text text[b.offset]).offset then
        Balance.run text (b.step text text[b.offset])
      else none
  else if b.opened.isEmpty then some b.offset else none
termination_by text.size - b.offset

/-- The offset of the token after the brackets that open at the next token, if it can be
told. -/
def afterBrackets? (text : Array Char) (cursor : Cursor) : Option Nat :=
  let start := skip text cursor.offset
  match text[start]? with
  | none => none
  | some c =>
    ({ offset := start + 1, opened := [c], operand := false } : Balance).run text |>.map (skip text)

/-- Whether the brackets that follow can hold the parameters of a function. -/
def mayBeParameters (dialect : Dialect) (text : Array Char) (cursor : Cursor) : Bool :=
  match afterBrackets? text cursor with
  | none => true
  | some next => wordAt text next ['=', '>'] || (dialect.types && charAt text next (· == ':'))

/-- Whether the brackets that follow can be the left side of an assignment. -/
def mayBeTarget (text : Array Char) (cursor : Cursor) : Bool :=
  match afterBrackets? text cursor with
  | none => true
  | some next => charAt text next (· == '=') && !charAt text (next + 1) (fun c => c == '=' || c == '>')

/-- Whether the braces that follow at the start of a statement can hold the entries of an
object: a name or a string, then a comma, a colon or the end. -/
def mayBeObject (text : Array Char) (cursor : Cursor) : Bool :=
  let start := skip text cursor.offset
  if charAt text start (· == '\x7b') then
    let first := skip text (start + 1)
    match (wordEnd? text first).or (stringAt text first) with
    | some stop => charAt text (skip text stop) (fun c => c == ',' || c == ':' || c == '\x7d')
    | none => wordAt text first ['.', '.', '.']
  else false

end Scrutiny.Grammar.Script
