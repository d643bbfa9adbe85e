/-!
# Whole numbers in texts

A whole number is a run of the ten digits with an optional plus sign in front.  Reading
stops at the first character that is no digit, or that makes the number too large.
-/

namespace Scrutiny.Text

/-- Why a text is no whole number. -/
inductive WholeError where
  /-- There is no text. -/
  | empty
  /-- A character is no digit. -/
  | invalidDigit
  /-- The number is too large. -/
  | tooLarge
  deriving DecidableEq, Repr, Inhabited

/-- The wording of an error. -/
def WholeError.message : WholeError → String
  | .empty => "cannot parse integer from empty string"
  | .invalidDigit => "invalid digit found in string"
  | .tooLarge => "number too large to fit in target type"

/-- The number that the digits `text` add to `n`, if it stays below `bound`. -/
def readDigits (bound : Nat) (n : Nat) : List Char → Except WholeError Nat
  | [] => .ok n
  | c :: rest =>
    if !c.isDigit then .error .invalidDigit
    else
      let next := 10 * n + (c.toNat - '0'.toNat)
      if next < bound then readDigits bound next rest else .error .tooLarge

/-- The whole number of at most `bits` bits that a text stands for. -/
def readWhole (bits : Nat) : List Char → Except WholeError Nat
  | [] => .error .empty
  | ['+'] => .error .invalidDigit
  | '+' :: digits => readDigits (Nat.pow 2 bits) 0 digits
  | digits => readDigits (Nat.pow 2 bits) 0 digits

end Scrutiny.Text
