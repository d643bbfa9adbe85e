import Mathlib.Data.Nat.Find
import Mathlib.Data.String.Basic
import Mathlib.Tactic.Common
import Scrutiny.Text.Utf8
import Scrutiny.Total

/-!
# Bytes of texts are texts

The text of the bytes of a text is that text.  A character is read from its one to four bytes
whatever follows them.  Texts are in the order of their characters exactly if their bytes are in order:
the more bytes a character has the larger is the first one, and they hold its digits in base 64.

Every byte of a text belongs to one of its characters, and a byte that is a character by itself
belongs to no other one.
-/

namespace Scrutiny.Text

/-! ### The bytes of a text -/

theorem toList_loop (bytes : ByteArray) (i : Nat) (done : List UInt8) :
  ByteArray.toList.loop bytes i done = done.reverse ++ bytes.data.toList.drop i
  := by
  induction i, done using ByteArray.toList.loop.induct bytes with
  | case1 i done hlt ih =>
      have hlt' : i < bytes.data.toList.length := hlt
      have hget : bytes.get! i = bytes.data.toList[i] := by
        rw [ByteArray.get!, getElem!_pos bytes.data i hlt, Array.getElem_toList]
      rw [ByteArray.toList.loop, if_pos hlt, ih, List.drop_eq_getElem_cons hlt', hget]
      simp
  | case2 i done hlt =>
      have hlength : bytes.data.toList.length ≤ i := Nat.not_lt.mp hlt
      rw [ByteArray.toList.loop, if_neg hlt, List.drop_of_length_le hlength, List.append_nil]

/-- The bytes of a text are those of its characters, one after the other. -/
theorem bytesOf_eq (text : String) :
  bytesOf text = text.toList.flatMap String.utf8EncodeChar
  := by
  rw [bytesOf, String.toUTF8_eq_toByteArray, ByteArray.toList, toList_loop,
    ← String.utf8Encode_toList, List.utf8Encode, List.data_toByteArray]
  rfl

/-! ### The text of some bytes -/

theorem toNat_ofNat_uint8 {n : Nat} (h : n < 256) :
  (UInt8.ofNat n).toNat = n
  := UInt8.toNat_ofNat_of_lt h

/-- Bytes that may come next are taken for those of a character. -/
theorem continuationBytes_map {low high second : Nat} {later : List Nat} (rest : List UInt8)
    (hsecond : low ≤ second ∧ second ≤ high) (hbyte : second < 256)
    (hlater : ∀ n ∈ later, 0x80 ≤ n ∧ n ≤ 0xbf) :
  continuationBytes low high (later.length + 1)
      (UInt8.ofNat second :: (later.map UInt8.ofNat ++ rest)) = second :: later
  := by
  induction later generalizing low high second with
  | nil => simp [continuationBytes, toNat_ofNat_uint8 hbyte, hsecond]
  | cons third later ih =>
      obtain ⟨hthird, hlater⟩ := List.forall_mem_cons.mp hlater
      rw [List.length_cons, continuationBytes, toNat_ofNat_uint8 hbyte, if_pos (by simpa using hsecond),
        List.map_cons, List.cons_append, ih hthird (by omega) hlater]

/-- A character of more than one byte is read from its bytes. -/
theorem decodeFrom_cons (done : Decoded) (fuel : Nat) (rest : List UInt8) {first second n : Nat}
    (later : List Nat) (hfirst : 0x80 ≤ first ∧ first < 256) (hsecond : second < 256)
    (hlater : ∀ n ∈ later, 0x80 ≤ n ∧ n ≤ 0xbf)
    (hcont : ∃ low high, continuation? first = some (low, high, later.length + 1)
      ∧ low ≤ second ∧ second ≤ high)
    (hcode : (second :: later).foldl (fun n c => n * 64 + c % 64)
      (first % Nat.pow 2 (6 - (later.length + 1))) = n) :
  decodeFrom done (fuel + 1)
      (UInt8.ofNat first :: UInt8.ofNat second :: (later.map UInt8.ofNat ++ rest))
    = decodeFrom { done with chars := Char.ofNat n :: done.chars } fuel rest
  := by
  obtain ⟨low, high, hcont, hrange⟩ := hcont
  have hdrop : (UInt8.ofNat second :: (later.map UInt8.ofNat ++ rest)).drop (later.length + 1)
      = rest := by
    simp
  rw [decodeFrom, toNat_ofNat_uint8 hfirst.2, if_neg (by omega), hcont]
  dsimp only
  rw [continuationBytes_map rest hrange hsecond hlater, List.length_cons, beq_self_eq_true,
    if_pos rfl, hdrop, hcode]

theorem continuation?_two {n : Nat} (hlow : 0x7f < n) (hhigh : n ≤ 0x7ff) :
  ∃ low high, continuation? (n / 64 % 32 + 192) = some (low, high, 1)
    ∧ low ≤ n % 64 + 128 ∧ n % 64 + 128 ≤ high
  := by
  unfold continuation?
  simp only [Bool.and_eq_true, decide_eq_true_eq, beq_iff_eq]
  rw [if_pos (by omega)]
  use 0x80, 0xbf, rfl
  omega

theorem continuation?_three {n : Nat} (hlow : 0x7ff < n) (hhigh : n ≤ 0xffff)
    (hcode : n < 0xd800 ∨ 0xdfff < n) :
  ∃ low high, continuation? (n / 4096 % 16 + 224) = some (low, high, 2)
    ∧ low ≤ n / 64 % 64 + 128 ∧ n / 64 % 64 + 128 ≤ high
  := by
  unfold continuation?
  simp only [Bool.and_eq_true, decide_eq_true_eq, beq_iff_eq]
  rw [if_neg (by omega)]
  split
  · use 0xa0, 0xbf, rfl
    omega
  · split
    · use 0x80, 0x9f, rfl
      omega
    · rw [if_pos (by omega)]
      use 0x80, 0xbf, rfl
      omega

theorem continuation?_four {n : Nat} (hlow : 0xffff < n) (hhigh : n < 0x110000) :
  ∃ low high, continuation? (n / 262144 % 8 + 240) = some (low, high, 3)
    ∧ low ≤ n / 4096 % 64 + 128 ∧ n / 4096 % 64 + 128 ≤ high
  := by
  unfold continuation?
  simp only [Bool.and_eq_true, decide_eq_true_eq, beq_iff_eq]
  rw [if_neg (by omega), if_neg (by omega), if_neg (by omega), if_neg (by omega)]
  split
  · use 0x90, 0xbf, rfl
    omega
  · split
    · use 0x80, 0xbf, rfl
      omega
    · rw [if_pos (by omega)]
      use 0x80, 0x8f, rfl
      omega

/-- The code of a character is not that of a surrogate. -/
theorem toNat_cases (c : Char) :
  c.toNat < 0xd800 ∨ (0xdfff < c.toNat ∧ c.toNat < 0x110000)
  := c.valid

/-- A character is read from its bytes. -/
theorem decodeFrom_utf8EncodeChar (done : Decoded) (fuel : Nat) (c : Char) (rest : List UInt8) :
  decodeFrom done (fuel + 1) (String.utf8EncodeChar c ++ rest)
    = decodeFrom { done with chars := c :: done.chars } fuel rest
  := by
  have hcode := toNat_cases c
  have hval : c.val.toNat = c.toNat := rfl
  rw [String.utf8EncodeChar, hval]
  generalize hn : c.toNat = n at hcode
  obtain rfl : c = Char.ofNat n := by rw [← hn, Char.ofNat_toNat]
  split
  · rw [List.singleton_append, decodeFrom, toNat_ofNat_uint8 (by omega), if_pos (by omega)]
  · split
    · apply decodeFrom_cons done fuel rest []
      · omega
      · omega
      · simp
      · apply continuation?_two (by omega) (by omega)
      · simp only [List.foldl_cons, List.foldl_nil, List.length_nil, Nat.pow_eq]
        omega
    · split
      · apply decodeFrom_cons done fuel rest [n % 64 + 128]
        · omega
        · omega
        · simp only [List.mem_singleton, forall_eq]
          omega
        · apply continuation?_three (by omega) (by omega) (by omega)
        · simp only [List.foldl_cons, List.foldl_nil, List.length_cons, List.length_nil, Nat.pow_eq]
          omega
      · apply decodeFrom_cons done fuel rest [n / 64 % 64 + 128, n % 64 + 128]
        · omega
        · omega
        · simp only [List.mem_cons, List.not_mem_nil, or_false, forall_eq_or_imp, forall_eq]
          omega
        · apply continuation?_four (by omega) (by omega)
        · simp only [List.foldl_cons, List.foldl_nil, List.length_cons, List.length_nil, Nat.pow_eq]
          omega

/-- Characters are read from their bytes. -/
theorem decodeFrom_flatMap (done : Decoded) {fuel : Nat} {chars : List Char}
    (hfuel : chars.length ≤ fuel) :
  decodeFrom done fuel (chars.flatMap String.utf8EncodeChar)
    = { done with chars := chars.reverse ++ done.chars }
  := by
  induction chars generalizing done fuel with
  | nil => cases fuel <;> rfl
  | cons c rest ih =>
      obtain ⟨fuel, rfl⟩ := Nat.exists_eq_succ_of_ne_zero (Nat.ne_of_gt (Nat.lt_of_lt_of_le
        (Nat.succ_pos _) hfuel))
      rw [List.flatMap_cons, decodeFrom_utf8EncodeChar, ih _ (Nat.le_of_succ_le_succ hfuel)]
      simp

theorem length_le_length_flatMap (chars : List Char) :
  chars.length ≤ (chars.flatMap String.utf8EncodeChar).length
  := by
  induction chars with
  | nil => apply Nat.le_refl
  | cons c rest ih =>
      have hpos := c.utf8Size_pos
      rw [List.flatMap_cons, List.length_append, String.length_utf8EncodeChar, List.length_cons]
      omega

/-- The bytes of a text are a text, and it is the one they were made of. -/
@[simp]
theorem text?_bytesOf (text : String) :
  text? (bytesOf text) = some text
  := by
  rw [text?, bytesOf_eq, decodeFrom_flatMap _ (length_le_length_flatMap _)]
  simp

/-! ### The order of bytes -/

theorem ofNat_cons_lt_iff {n m : Nat} (hn : n < 256) (hm : m < 256) (before after : List UInt8) :
  UInt8.ofNat n :: before < UInt8.ofNat m :: after ↔ n < m ∨ n = m ∧ before < after
  := by
  rw [List.cons_lt_cons_iff, UInt8.lt_iff_toNat_lt, ← UInt8.toNat_inj, toNat_ofNat_uint8 hn,
    toNat_ofNat_uint8 hm]

/-- Numbers are compared by their digits. -/
theorem digits_lt {n m : Nat} (h : n < m) :
  n / 262144 < m / 262144 ∨ n / 262144 = m / 262144 ∧ (n / 4096 % 64 < m / 4096 % 64
    ∨ n / 4096 % 64 = m / 4096 % 64 ∧ (n / 64 % 64 < m / 64 % 64
      ∨ n / 64 % 64 = m / 64 % 64 ∧ n % 64 < m % 64))
  := by
  have hdigits (k : Nat) :
      k = 262144 * (k / 262144) + 4096 * (k / 4096 % 64) + 64 * (k / 64 % 64) + k % 64 := by
    omega
  have hn := hdigits n
  have hm := hdigits m
  omega

/-- The bytes of a smaller character come first, whatever follows them. -/
theorem utf8EncodeChar_append_lt {c d : Char} (h : c < d) (before after : List UInt8) :
  String.utf8EncodeChar c ++ before < String.utf8EncodeChar d ++ after
  := by
  have hcode := toNat_cases c
  have hcode' := toNat_cases d
  have hlt : c.toNat < d.toNat := h
  have hdigits := digits_lt hlt
  have hval : c.val.toNat = c.toNat := rfl
  have hval' : d.val.toNat = d.toNat := rfl
  rw [String.utf8EncodeChar, String.utf8EncodeChar, hval, hval']
  generalize c.toNat = n at *
  generalize d.toNat = m at *
  clear h hval hval'
  -- The first bytes differ if the numbers of bytes do; else the digits decide.
  split_ifs
    <;> simp (disch := omega) only [List.cons_append, List.nil_append, ofNat_cons_lt_iff,
      Nat.mod_eq_of_lt]
    <;> omega

theorem flatMap_utf8EncodeChar_lt {chars others : List Char} (h : chars < others) :
  chars.flatMap String.utf8EncodeChar < others.flatMap String.utf8EncodeChar
  := by
  induction chars generalizing others with
  | nil =>
      cases others with
      | nil => cases h
      | cons d others =>
          have hpos : 0 < (String.utf8EncodeChar d).length := by
            rw [String.length_utf8EncodeChar]
            apply d.utf8Size_pos
          obtain ⟨byte, bytes, hbytes⟩ := List.exists_cons_of_length_pos hpos
          rw [List.flatMap_cons, hbytes]
          apply List.nil_lt_cons
  | cons c rest ih =>
      cases others with
      | nil => cases h
      | cons d others =>
          rw [List.flatMap_cons, List.flatMap_cons]
          rcases List.cons_lt_cons_iff.mp h with hlt | ⟨rfl, hrest⟩
          · apply utf8EncodeChar_append_lt hlt
          · apply List.append_left_lt (ih hrest)

/-- Texts are in order exactly if their bytes are. -/
theorem bytesOf_lt_bytesOf_iff {text other : String} :
  bytesOf text < bytesOf other ↔ text < other
  := by
  rw [bytesOf_eq, bytesOf_eq, String.lt_iff_toList_lt]
  constructor
  · intro h
    rcases lt_trichotomy text.toList other.toList with hlt | heq | hlt
    · apply hlt
    · rw [heq] at h
      cases List.lt_irrefl _ h
    · cases List.lt_asymm h (flatMap_utf8EncodeChar_lt hlt)
  · apply flatMap_utf8EncodeChar_lt

/-! ### The number of bytes -/

/-- A byte that is a character by itself is part of no other character. -/
theorem mem_utf8EncodeChar_iff {c d : Char} (hd : d.toNat < 0x80) :
  UInt8.ofNat d.toNat ∈ String.utf8EncodeChar c ↔ c = d
  := by
  have hcode := toNat_cases c
  have hval : c.val.toNat = c.toNat := rfl
  have hmem {n : Nat} (hn : n < 256) : UInt8.ofNat d.toNat = UInt8.ofNat n ↔ d.toNat = n := by
    rw [← UInt8.toNat_inj, toNat_ofNat_uint8 (by omega), toNat_ofNat_uint8 hn]
  have heq : c = d ↔ d.toNat = c.toNat := by
    rw [← Char.toNat_inj, eq_comm]
  rw [String.utf8EncodeChar, hval, heq]
  generalize c.toNat = n at *
  -- The bytes of a character that has more than one are all from `0x80` on.
  split_ifs
    <;> simp (disch := omega) only [List.mem_cons, List.not_mem_nil, or_false, hmem]
    <;> omega

theorem length_flatMap_utf8EncodeChar (chars : List Char) :
  (chars.flatMap String.utf8EncodeChar).length = total Char.utf8Size chars
  := by
  induction chars with
  | nil => rfl
  | cons c rest ih =>
      rw [List.flatMap_cons, List.length_append, String.length_utf8EncodeChar, ih, total]

theorem length_bytesOf (text : String) :
  (bytesOf text).length = text.utf8ByteSize
  := by
  rw [bytesOf, String.toUTF8_eq_toByteArray, ByteArray.toList, toList_loop]
  rfl

@[simp]
theorem utf8ByteSize_ofList (chars : List Char) :
  (String.ofList chars).utf8ByteSize = total Char.utf8Size chars
  := by
  rw [← length_bytesOf, bytesOf_eq, String.toList_ofList, length_flatMap_utf8EncodeChar]

/-! ### Offsets of characters -/

/-- The number of bytes in front of the character at an offset. -/
def byteOffset (chars : List Char) (offset : Nat) : Nat :=
  total Char.utf8Size (chars.take offset)

theorem byteOffset_append (before after : List Char) :
  byteOffset (before ++ after) before.length = total Char.utf8Size before
  := by
  rw [byteOffset, List.take_left]

theorem byteOffset_length (chars : List Char) :
  byteOffset chars chars.length = total Char.utf8Size chars
  := by
  rw [byteOffset, List.take_length]

theorem utf8ByteSize_eq (text : String) :
  text.utf8ByteSize = byteOffset text.toList text.toList.length
  := by
  rw [byteOffset_length, ← utf8ByteSize_ofList, String.ofList_toList]

theorem length_flatMap_take (chars : List Char) (offset : Nat) :
  ((chars.take offset).flatMap String.utf8EncodeChar).length = byteOffset chars offset
  := length_flatMap_utf8EncodeChar _

theorem flatMap_utf8EncodeChar_eq (chars : List Char) (offset : Nat) :
  chars.flatMap String.utf8EncodeChar
    = (chars.take offset).flatMap String.utf8EncodeChar
      ++ (chars.drop offset).flatMap String.utf8EncodeChar
  := by
  rw [← List.flatMap_append, List.take_append_drop]

variable {chars : List Char} {i j b : Nat} {c : Char}

theorem byteOffset_succ (h : chars[i]? = some c) :
  byteOffset chars (i + 1) = byteOffset chars i + c.utf8Size
  := by
  rw [byteOffset, List.take_add_one, h, total_append]
  rfl

theorem byteOffset_lt (h : i < j) (hj : j ≤ chars.length) :
  byteOffset chars i < byteOffset chars j
  := by
  induction j, h using Nat.le_induction with
  | base =>
      rw [byteOffset_succ (List.getElem?_eq_getElem hj)]
      have hpos := (chars[i]).utf8Size_pos
      omega
  | succ j hle ih =>
      have hlt := ih (by omega)
      rw [byteOffset_succ (List.getElem?_eq_getElem hj)]
      omega

theorem byteOffset_le_iff (hi : i ≤ chars.length) (hj : j ≤ chars.length) :
  byteOffset chars i ≤ byteOffset chars j ↔ i ≤ j
  := by
  constructor
  · intro h
    by_contra hlt
    have := byteOffset_lt (Nat.not_le.mp hlt) hi
    omega
  · intro h
    rcases Nat.lt_or_eq_of_le h with hlt | rfl
    · apply Nat.le_of_lt (byteOffset_lt hlt hj)
    · apply Nat.le_refl

theorem byteOffset_lt_iff (hi : i ≤ chars.length) (hj : j ≤ chars.length) :
  byteOffset chars i < byteOffset chars j ↔ i < j
  := by
  rw [← Nat.not_le, byteOffset_le_iff hj hi, Nat.not_le]

/-- The bytes of a character stand where the character does. -/
theorem getElem?_byteOffset_add (hi : i < chars.length) {n : Nat} (hn : n < (chars[i]).utf8Size) :
  (chars.flatMap String.utf8EncodeChar)[byteOffset chars i + n]?
    = (String.utf8EncodeChar chars[i])[n]?
  := by
  rw [flatMap_utf8EncodeChar_eq chars i, ← length_flatMap_take,
    List.getElem?_append_right (Nat.le_add_right ..), Nat.add_sub_cancel_left,
    List.drop_eq_getElem_cons hi, List.flatMap_cons, List.getElem?_append_left]
  rwa [String.length_utf8EncodeChar]

/-- The last byte in front of a character is a carriage return exactly if the character before it
is one. -/
theorem getElem?_byteOffset_sub_one (hpos : 0 < i) (hi : i ≤ chars.length) :
  (chars.flatMap String.utf8EncodeChar)[byteOffset chars i - 1]? = some 0x0d
    ↔ chars[i - 1]? = some '\r'
  := by
  obtain ⟨i, rfl⟩ := Nat.exists_eq_add_one_of_ne_zero (Nat.ne_of_gt hpos)
  have hsize := (chars[i]).utf8Size_pos
  have hlast : byteOffset chars (i + 1) - 1 = byteOffset chars i + ((chars[i]).utf8Size - 1) := by
    rw [byteOffset_succ (List.getElem?_eq_getElem hi)]
    omega
  rw [Nat.add_sub_cancel, List.getElem?_eq_getElem hi, hlast, getElem?_byteOffset_add hi (by omega)]
  constructor
  · intro h
    rw [(mem_utf8EncodeChar_iff (d := '\r') (by decide)).mp (List.mem_of_getElem? h)]
  · intro h
    rw [Option.some.inj h]
    rfl

/-- A text may be cut in front of any character. -/
theorem isValid_byteOffset (text : String) (offset : Nat) :
  String.Pos.Raw.IsValid text ⟨byteOffset text.toList offset⟩
  := by
  apply String.Pos.Raw.isValid_iff_exists_append.mpr
  use String.ofList (text.toList.take offset), String.ofList (text.toList.drop offset)
  constructor
  · rw [← String.ofList_append, List.take_append_drop, String.ofList_toList]
  · rw [String.Pos.Raw.ext_iff, String.byteIdx_rawEndPos, utf8ByteSize_ofList]
    rfl

/-! ### Offsets of bytes -/

/-- The byte at the offset `b` belongs to the character at the offset `i`, or neither of them is
in front of the end of the text. -/
structure IsByteOf (chars : List Char) (i b : Nat) : Prop where
  /-- The character is one of the text, or the end of it. -/
  le_length : i ≤ chars.length
  /-- The character starts at or before the byte. -/
  le_byte : byteOffset chars i ≤ b
  /-- The next character starts after the byte. -/
  byte_lt : i < chars.length → b < byteOffset chars (i + 1)

theorem exists_isByteOf (chars : List Char) (b : Nat) :
  ∃ i, IsByteOf chars i b
  := by
  use Nat.findGreatest (fun i => byteOffset chars i ≤ b) chars.length
  constructor
  · apply Nat.findGreatest_le
  · apply Nat.findGreatest_spec (P := fun i => byteOffset chars i ≤ b) (Nat.zero_le _)
    apply Nat.zero_le
  · intro hlt
    by_contra hle
    have := Nat.le_findGreatest (P := fun i => byteOffset chars i ≤ b) hlt (Nat.not_lt.mp hle)
    omega

theorem isByteOf_byteOffset (hi : i ≤ chars.length) :
  IsByteOf chars i (byteOffset chars i)
  := by
  use hi, Nat.le_refl _
  intro hlt
  apply byteOffset_lt (Nat.lt_add_one i) hlt

/-- The last byte in front of a character belongs to the character before it. -/
theorem isByteOf_sub_one (hpos : 0 < i) (hi : i ≤ chars.length) :
  IsByteOf chars (i - 1) (byteOffset chars i - 1)
  := by
  have hlt : byteOffset chars (i - 1) < byteOffset chars i := byteOffset_lt (by omega) hi
  constructor
  · omega
  · omega
  · intro _
    rw [Nat.sub_add_cancel hpos]
    omega

namespace IsByteOf

/-- The characters that start at or before a byte are those up to the one it belongs to. -/
theorem byteOffset_le_iff (h : IsByteOf chars i b) (hj : j ≤ chars.length) :
  byteOffset chars j ≤ b ↔ j ≤ i
  := by
  constructor
  · intro hle
    by_contra hlt
    have hnext := h.byte_lt (by omega)
    have hmono : byteOffset chars (i + 1) ≤ byteOffset chars j :=
      (Text.byteOffset_le_iff (by omega) hj).mpr (Nat.not_le.mp hlt)
    omega
  · intro hle
    apply Nat.le_trans _ h.le_byte
    apply (Text.byteOffset_le_iff hj h.le_length).mpr hle

end IsByteOf

end Scrutiny.Text
