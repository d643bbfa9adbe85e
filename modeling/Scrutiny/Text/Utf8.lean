/-!
# Text and bytes

The bytes of a text, and the text of any bytes: what is no character becomes the
replacement character, one for every start of a character that cannot be completed and for
every other byte that starts none.
-/

namespace Scrutiny.Text

/-- The bytes of a text. -/
def bytesOf (text : String) : List UInt8 :=
  text.toUTF8.toList

/-- The replacement character. -/
def replacement : Char := '\uFFFD'

/-- How a character goes on after its first byte: the range of the second byte, and the number
of further bytes. -/
def continuation? (first : Nat) : Option (Nat × Nat × Nat) :=
  if 0xc2 ≤ first && first ≤ 0xdf then some (0x80, 0xbf, 1)
  else if first == 0xe0 then some (0xa0, 0xbf, 2)
  else if first == 0xed then some (0x80, 0x9f, 2)
  else if 0xe1 ≤ first && first ≤ 0xef then some (0x80, 0xbf, 2)
  else if first == 0xf0 then some (0x90, 0xbf, 3)
  else if 0xf1 ≤ first && first ≤ 0xf3 then some (0x80, 0xbf, 3)
  else if first == 0xf4 then some (0x80, 0x8f, 3)
  else none

/-- The bytes that continue a character: as many as fit, up to `count`; the first of them must
be in the range from `low` to `high`, the others are from `0x80` to `0xbf`. -/
def continuationBytes (low high : Nat) : (count : Nat) → List UInt8 → List Nat
  | 0, _ => []
  | _ + 1, [] => []
  | count + 1, b :: rest =>
    if low ≤ b.toNat && b.toNat ≤ high then b.toNat :: continuationBytes 0x80 0xbf count rest else []

/-- What was read of some bytes: the characters, the last one first, and whether all bytes were
part of a character. -/
structure Decoded where
  /-- The characters, the last one first. -/
  chars : List Char
  /-- Whether no byte was replaced. -/
  whole : Bool
  deriving DecidableEq, Repr, Inhabited

/-- Reads the bytes after those that gave `done`. -/
def decodeFrom (done : Decoded) : (fuel : Nat) → List UInt8 → Decoded
  | 0, _ => done
  | _ + 1, [] => done
  | fuel + 1, b :: rest =>
    let first := b.toNat
    if first < 0x80 then decodeFrom { done with chars := Char.ofNat first :: done.chars } fuel rest
    else
      let damaged : Decoded := { chars := replacement :: done.chars, whole := false }
      match continuation? first with
      | none => decodeFrom damaged fuel rest
      | some (low, high, count) =>
        let found := continuationBytes low high count rest
        let later := rest.drop found.length
        if found.length == count then
          let top := first % Nat.pow 2 (6 - count)
          let c := Char.ofNat (found.foldl (fun n c => n * 64 + c % 64) top)
          decodeFrom { done with chars := c :: done.chars } fuel later
        else decodeFrom damaged fuel later

/-- The text of some bytes, with replacement characters where they are no text. -/
def lossyText (bytes : List UInt8) : String :=
  String.ofList (decodeFrom { chars := [], whole := true } bytes.length bytes).chars.reverse

/-- The text of some bytes, if they are a text. -/
def text? (bytes : List UInt8) : Option String :=
  let decoded := decodeFrom { chars := [], whole := true } bytes.length bytes
  if decoded.whole then some (String.ofList decoded.chars.reverse) else none

end Scrutiny.Text
