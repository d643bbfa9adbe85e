import Scrutiny.Decimal.Shortest
import Scrutiny.Json.Value

/-!
# Writing JSON

The text of a value, either in one line without blanks or with one item a line, indented by
two blanks a level.  Doubles are written with the fewest digits that read back; from `1e16`
on and below `1e-5` with an exponent.
-/

namespace Scrutiny.Json

/-- The digit of the value `n` in base sixteen. -/
def hexDigit (n : Nat) : Char :=
  if n < 10 then Char.ofNat (48 + n) else Char.ofNat (87 + n)

/-- A character as it stands inside a string. -/
def escapeChar (c : Char) : List Char :=
  if c == '"' then ['\\', '"']
  else if c == '\\' then ['\\', '\\']
  else if c == '\n' then ['\\', 'n']
  else if c == '\r' then ['\\', 'r']
  else if c == '\t' then ['\\', 't']
  else if c == '\x08' then ['\\', 'b']
  else if c == '\x0c' then ['\\', 'f']
  else if c.toNat < 32 then
    ['\\', 'u', '0', '0', hexDigit (c.toNat / 16), hexDigit (c.toNat % 16)]
  else [c]

/-- The text of a string, with its quotation marks. -/
def stringText (s : String) : List Char :=
  '"' :: s.toList.flatMap escapeChar ++ ['"']

/-- The text of a positive decimal: up to `10 ^ 16` and from `10 ^ -5` on by place value. -/
def decimalText (d : Decimal.Scaled) : List Char :=
  let digits := (toString d.digits).toList
  let count : Int := digits.length
  -- The number of digits before the point.
  let point := count + d.exponent
  if 0 ≤ d.exponent && point ≤ 16 then
    digits ++ List.replicate d.exponent.toNat '0' ++ ['.', '0']
  else if 0 < point && point ≤ 16 then
    digits.take point.toNat ++ '.' :: digits.drop point.toNat
  else if -5 < point && point ≤ 0 then
    '0' :: '.' :: List.replicate (-point).toNat '0' ++ digits
  else
    let exponent := 'e' :: (toString (point - 1)).toList
    match digits with
    | [d] => d :: exponent
    | d :: rest => d :: '.' :: rest ++ exponent
    | [] => exponent

/-- The text of a double; what is no number is written as null. -/
def doubleText (bits : UInt64) : List Char :=
  match Decimal.Double.ofBits bits with
  | .zero negative => if negative then "-0.0".toList else "0.0".toList
  | .finite negative magnitude =>
    let text := decimalText (Decimal.shortest magnitude)
    if negative then '-' :: text else text
  | .special => "null".toList

/-- The text of a number. -/
def numberText : Number → List Char
  | .int n => (toString n).toList
  | .double bits => doubleText bits

mutual

/-- The text of a value in one line. -/
def compact : Json → List Char
  | .null => "null".toList
  | .bool b => (if b then "true" else "false").toList
  | .number n => numberText n
  | .string s => stringText s
  | .array items => '[' :: compactItems items ++ [']']
  | .object fields => '\x7b' :: compactFields fields ++ ['\x7d']

/-- The texts of values between commas. -/
def compactItems : List Json → List Char
  | [] => []
  | [item] => compact item
  | item :: rest => compact item ++ ',' :: compactItems rest

/-- The texts of fields between commas. -/
def compactFields : List (String × Json) → List Char
  | [] => []
  | [(name, value)] => stringText name ++ ':' :: compact value
  | (name, value) :: rest => stringText name ++ ':' :: compact value ++ ',' :: compactFields rest

end

/-- A new line that is indented by `level` levels. -/
def newLine (level : Nat) : List Char :=
  '\n' :: List.replicate (2 * level) ' '

mutual

/-- The text of a value with one item a line, inside `level` levels. -/
def prettyAt (level : Nat) : Json → List Char
  | .array [] => ['[', ']']
  | .array (item :: rest) =>
    '[' :: prettyItems (level + 1) (item :: rest) ++ newLine level ++ [']']
  | .object [] => ['\x7b', '\x7d']
  | .object (field :: rest) =>
    '\x7b' :: prettyFields (level + 1) (field :: rest) ++ newLine level ++ ['\x7d']
  | .null => "null".toList
  | .bool b => (if b then "true" else "false").toList
  | .number n => numberText n
  | .string s => stringText s

/-- The texts of values, each on a line of its own. -/
def prettyItems (level : Nat) : List Json → List Char
  | [] => []
  | [item] => newLine level ++ prettyAt level item
  | item :: rest => newLine level ++ prettyAt level item ++ ',' :: prettyItems level rest

/-- The texts of fields, each on a line of its own. -/
def prettyFields (level : Nat) : List (String × Json) → List Char
  | [] => []
  | [(name, value)] => newLine level ++ stringText name ++ ':' :: ' ' :: prettyAt level value
  | (name, value) :: rest =>
    newLine level ++ stringText name ++ ':' :: ' ' :: prettyAt level value
      ++ ',' :: prettyFields level rest

end

/-- The text of a value with one item a line. -/
def pretty (json : Json) : String := String.ofList (prettyAt 0 json)

/-- The text of a value in one line. -/
def render (json : Json) : String := String.ofList (compact json)

end Scrutiny.Json
