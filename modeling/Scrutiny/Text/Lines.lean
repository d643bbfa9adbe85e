/-!
# Blank characters and lines

Which characters are blank, and where the lines of a text begin and end.
-/

namespace Scrutiny.Text

/-!
## Blank characters

The characters with the property White_Space, and trimming of texts at them.
-/

/-- Whether the character has the property White_Space. -/
def isBlank (c : Char) : Bool :=
  let n := c.toNat
  (9 ≤ n && n ≤ 13) || n == 32 || n == 0x85 || n == 0xa0 || n == 0x1680
    || (0x2000 ≤ n && n ≤ 0x200a) || n == 0x2028 || n == 0x2029 || n == 0x202f
    || n == 0x205f || n == 0x3000

/-- The text without the blank characters at its start. -/
def trimStart (text : List Char) : List Char :=
  text.dropWhile isBlank

/-- The text without the blank characters at its end. -/
def trimEnd (text : List Char) : List Char :=
  (text.reverse.dropWhile isBlank).reverse

/-- The text without the blank characters at its start and end. -/
def trim (text : List Char) : List Char :=
  trimEnd (trimStart text)

/-- Whether the text holds nothing but blank characters. -/
def isBlankText (text : List Char) : Bool :=
  text.all isBlank

/-!
## Lines

The lines of a text and where they stand in it.  Lines are separated by line feeds; a
carriage return before a line feed, or at the end of the text, belongs to no line.
Offsets count characters.
-/

/-- The pieces of a list between the separators, the first of which starts with the elements
`current`, the last one first. -/
def splitFrom {α : Type} [BEq α] (separator : α) (current : List α) : List α → List (List α)
  | [] => [current.reverse]
  | c :: rest =>
    if c == separator then current.reverse :: splitFrom separator [] rest
    else splitFrom separator (c :: current) rest

/-- The pieces of a list between the separators. -/
def splitAt {α : Type} [BEq α] (separator : α) (text : List α) : List (List α) :=
  splitFrom separator [] text

/-- The pieces put together again with the separator between them. -/
def joinWith (separator : List Char) : List (List Char) → List Char
  | [] => []
  | [piece] => piece
  | piece :: pieces => piece ++ separator ++ joinWith separator pieces

/-- Whether a text has another one in it. -/
def hasInside (needle : List Char) : List Char → Bool
  | [] => needle.isEmpty
  | c :: rest => needle.isPrefixOf (c :: rest) || hasInside needle rest

/-- The first line of a text, without the characters that end it. -/
def firstLine (text : List Char) : List Char :=
  let line := text.takeWhile (· != '\n')
  if line.length < text.length && line.getLast? == some '\r' then line.dropLast else line

/-- The number of line feeds in a text. -/
def lineFeeds (text : List Char) : Nat :=
  text.count '\n'

/-- The width of the blanks at the start of a line: a tab counts four, any other one. -/
def indentWidth : List Char → Nat
  | [] => 0
  | c :: rest => if isBlank c then (if c == '\t' then 4 else 1) + indentWidth rest else 0

/-- A text with the offsets at which its lines start. -/
structure LineIndex where
  /-- The characters of the text. -/
  chars : Array Char
  /-- The offset of the first character of each line. -/
  starts : Array Nat

namespace LineIndex

/-- The offsets after the line feeds of a text that starts at offset `i`. -/
def startsFrom (i : Nat) : List Char → List Nat
  | [] => []
  | c :: rest => if c == '\n' then (i + 1) :: startsFrom (i + 1) rest else startsFrom (i + 1) rest

/-- The index of a text. -/
def ofText (text : List Char) : LineIndex :=
  { chars := text.toArray, starts := (0 :: startsFrom 0 text).toArray }

/-- The number of lines. -/
def lineCount (index : LineIndex) : Nat :=
  index.starts.size

/-- The offset of the first character of a line. -/
def lineStart (index : LineIndex) (line : Nat) : Nat :=
  index.starts[line]?.getD index.chars.size

/-- The offset after the last character of a line, its line feed and a carriage return
before that not included. -/
def lineEnd (index : LineIndex) (line : Nat) : Nat :=
  let stop :=
    match index.starts[line + 1]? with
    | some next => next - 1
    | none => index.chars.size
  if index.lineStart line < stop && index.chars[stop - 1]? == some '\r' then stop - 1 else stop

/-- The characters from one offset to another. -/
def slice (index : LineIndex) (start stop : Nat) : List Char :=
  (index.chars.extract start stop).toList

/-- The characters of a line. -/
def line (index : LineIndex) (line : Nat) : List Char :=
  index.slice (index.lineStart line) (index.lineEnd line)

/-- The line that holds the character at an offset. -/
def lineOf (index : LineIndex) (offset : Nat) : Nat :=
  (index.starts.toList.takeWhile (· ≤ offset)).length - 1

end LineIndex

end Scrutiny.Text
