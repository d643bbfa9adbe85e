import Scrutiny.Text.Utf8

/-!
# SHA-256

The digest of a list of bytes.  The bytes are padded to whole blocks of 64 bytes; each block
is expanded to 64 words, and 64 rounds mix them into a state of eight words.
-/

namespace Scrutiny.Sha256

/-- The state between two blocks. -/
structure State where
  a : UInt32
  b : UInt32
  c : UInt32
  d : UInt32
  e : UInt32
  f : UInt32
  g : UInt32
  h : UInt32
  deriving DecidableEq, Repr

/-- The state before the first block. -/
def start : State where
  a := 0x6a09e667
  b := 0xbb67ae85
  c := 0x3c6ef372
  d := 0xa54ff53a
  e := 0x510e527f
  f := 0x9b05688c
  g := 0x1f83d9ab
  h := 0x5be0cd19

/-- The constants of the rounds. -/
def roundConstants : List UInt32 := [
  0x428a2f98, 0x71374491, 0xb5c0fbcf, 0xe9b5dba5, 0x3956c25b, 0x59f111f1, 0x923f82a4, 0xab1c5ed5,
  0xd807aa98, 0x12835b01, 0x243185be, 0x550c7dc3, 0x72be5d74, 0x80deb1fe, 0x9bdc06a7, 0xc19bf174,
  0xe49b69c1, 0xefbe4786, 0x0fc19dc6, 0x240ca1cc, 0x2de92c6f, 0x4a7484aa, 0x5cb0a9dc, 0x76f988da,
  0x983e5152, 0xa831c66d, 0xb00327c8, 0xbf597fc7, 0xc6e00bf3, 0xd5a79147, 0x06ca6351, 0x14292967,
  0x27b70a85, 0x2e1b2138, 0x4d2c6dfc, 0x53380d13, 0x650a7354, 0x766a0abb, 0x81c2c92e, 0x92722c85,
  0xa2bfe8a1, 0xa81a664b, 0xc24b8b70, 0xc76c51a3, 0xd192e819, 0xd6990624, 0xf40e3585, 0x106aa070,
  0x19a4c116, 0x1e376c08, 0x2748774c, 0x34b0bcb5, 0x391c0cb3, 0x4ed8aa4a, 0x5b9cca4f, 0x682e6ff3,
  0x748f82ee, 0x78a5636f, 0x84c87814, 0x8cc70208, 0x90befffa, 0xa4506ceb, 0xbef9a3f7, 0xc67178f2]

/-- The word turned to the right. -/
def turn (x : UInt32) (n : UInt32) : UInt32 :=
  (x >>> n) ||| (x <<< (32 - n))

/-- The number as `count` bytes, the highest first. -/
def highFirst (count n : Nat) : List UInt8 :=
  (List.range count).reverse.map fun i => UInt8.ofNat (n / Nat.pow 256 i)

/-- The bytes with a mark, zeros and the length in bits, so that they fill whole blocks. -/
def pad (bytes : List UInt8) : List UInt8 :=
  let length := bytes.length
  let zeros := (119 - length % 64) % 64
  bytes ++ 0x80 :: List.replicate zeros 0 ++ highFirst 8 (8 * length)

/-- The words that four bytes each make, the highest byte first. -/
def words : List UInt8 → List UInt32
  | a :: b :: c :: d :: rest =>
    ((a.toUInt32 <<< 24) ||| (b.toUInt32 <<< 16) ||| (c.toUInt32 <<< 8) ||| d.toUInt32) :: words rest
  | _ => []

/-- The next word of a block, from the words so far, the last one first. -/
def nextWord (earlier : List UInt32) : UInt32 :=
  let word (i : Nat) : UInt32 := earlier.getD i 0
  let x := word 14
  let y := word 1
  let small := turn x 7 ^^^ turn x 18 ^^^ (x >>> 3)
  let large := turn y 17 ^^^ turn y 19 ^^^ (y >>> 10)
  word 15 + small + word 6 + large

/-- Adds `count` words to those of a block, the last one first. -/
def expand : (count : Nat) → List UInt32 → List UInt32
  | 0, earlier => earlier
  | count + 1, earlier => expand count (nextWord earlier :: earlier)

/-- One round. -/
def round (s : State) (constant word : UInt32) : State :=
  let choice := (s.e &&& s.f) ^^^ (~~~s.e &&& s.g)
  let majority := (s.a &&& s.b) ^^^ (s.a &&& s.c) ^^^ (s.b &&& s.c)
  let first := s.h + (turn s.e 6 ^^^ turn s.e 11 ^^^ turn s.e 25) + choice + constant + word
  let second := (turn s.a 2 ^^^ turn s.a 13 ^^^ turn s.a 22) + majority
  { a := first + second, b := s.a, c := s.b, d := s.c, e := s.d + first, f := s.e, g := s.f, h := s.g }

/-- The state after a block of sixteen words. -/
def block (s : State) (input : List UInt32) : State :=
  let schedule := (expand 48 input.reverse).reverse
  let mixed := (roundConstants.zip schedule).foldl (fun s (constant, word) => round s constant word) s
  { a := s.a + mixed.a, b := s.b + mixed.b, c := s.c + mixed.c, d := s.d + mixed.d
    e := s.e + mixed.e, f := s.f + mixed.f, g := s.g + mixed.g, h := s.h + mixed.h }

/-- The state after all bytes, which fill whole blocks. -/
def blocks (s : State) (bytes : List UInt8) : State :=
  if (bytes.take 64).length < 64 then s
  else blocks (block s (words (bytes.take 64))) (bytes.drop 64)
termination_by bytes.length
decreasing_by
  simp only [List.length_take, List.length_drop] at *
  omega

/-- The digest of some bytes. -/
def digest (bytes : List UInt8) : List UInt8 :=
  let s := blocks start (pad bytes)
  [s.a, s.b, s.c, s.d, s.e, s.f, s.g, s.h].flatMap fun word => highFirst 4 word.toNat

/-- A byte as two hexadecimal digits. -/
def hexByte (byte : UInt8) : List Char :=
  [Nat.digitChar (byte.toNat / 16), Nat.digitChar (byte.toNat % 16)]

/-- Bytes as hexadecimal digits. -/
def hex (bytes : List UInt8) : String :=
  String.ofList (bytes.flatMap hexByte)

/-- The digest of a text as hexadecimal digits. -/
def ofText (text : String) : String :=
  hex (digest (Text.bytesOf text))

/-- The first eight bytes of the digest of a text as hexadecimal digits. -/
def shortOfText (text : String) : String :=
  hex ((digest (Text.bytesOf text)).take 8)

end Scrutiny.Sha256
