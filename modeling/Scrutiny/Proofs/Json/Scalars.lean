import Mathlib.Tactic.Common
import Scrutiny.Json.Reader
import Scrutiny.Json.Writer

/-!
# Strings and whole numbers read back

The text of a string is read as that string, whatever follows it.  The text of a whole number
that can be held is read as that number, unless what follows would make it longer.
-/

namespace Scrutiny.Json

/-! ### Strings -/

theorem hexValue?_hexDigit :
  ∀ n < 16, hexValue? (hexDigit n) = some n
  := by
  decide

/-- The escape of a control character is read as that character. -/
theorem readUnicode_hexDigit {c : Char} (hc : c.toNat < 32) (rest : List Char) :
  readUnicode ('0' :: '0' :: hexDigit (c.toNat / 16) :: hexDigit (c.toNat % 16) :: rest)
    = .ok (c, rest)
  := by
  have hzero : hexValue? '0' = some 0 := by decide
  have hhigh := hexValue?_hexDigit (c.toNat / 16) (by omega)
  have hlow := hexValue?_hexDigit (c.toNat % 16) (by omega)
  have hcode : ((0 * 16 + 0) * 16 + c.toNat / 16) * 16 + c.toNat % 16 = c.toNat := by omega
  have hhex : readHex ('0' :: '0' :: hexDigit (c.toNat / 16) :: hexDigit (c.toNat % 16) :: rest)
      = .ok (c.toNat, rest) := by
    rw [readHex, hzero, hhigh, hlow]
    dsimp only
    rw [hcode]
  rw [readUnicode, hhex]
  dsimp only
  rw [if_neg, if_pos, Char.ofNat_toNat]
  · simp only [Bool.or_eq_true, decide_eq_true_eq]
    omega
  · simp only [Bool.and_eq_true, decide_eq_true_eq]
    omega

/-- What a character is written as is read as that character. -/
theorem readString_escapeChar (read : List Char) (fuel : Nat) (c : Char) (rest : List Char) :
  readString read (fuel + 1) (escapeChar c ++ rest) = readString (c :: read) fuel rest
  := by
  have hescape {letter : Char} (hletter : readEscape (letter :: rest) = .ok (c, rest)) :
      readString read (fuel + 1) ('\\' :: letter :: rest) = readString (c :: read) fuel rest := by
    rw [readString, hletter]
  unfold escapeChar
  simp only [beq_iff_eq]
  split_ifs with h₁ h₂ h₃ h₄ h₅ h₆ h₇ h₈
  · subst h₁
    apply hescape rfl
  · subst h₂
    apply hescape rfl
  · subst h₃
    apply hescape rfl
  · subst h₄
    apply hescape rfl
  · subst h₅
    apply hescape rfl
  · subst h₆
    apply hescape rfl
  · subst h₇
    apply hescape rfl
  · have hcode := readUnicode_hexDigit h₈ rest
    simp only [List.cons_append, List.nil_append]
    rw [readString, readEscape, hcode]
  · rw [List.singleton_append, readString]
    · rw [if_neg h₈]
    · apply h₁
    · apply h₂

/-- The characters of a string are read up to the quotation mark. -/
theorem readString_flatMap (read chars rest : List Char) {fuel : Nat}
    (hfuel : chars.length < fuel) :
  readString read fuel (chars.flatMap escapeChar ++ '"' :: rest)
    = .ok (String.ofList (read.reverse ++ chars), rest)
  := by
  induction chars generalizing read fuel with
  | nil =>
      obtain ⟨fuel, rfl⟩ := Nat.exists_eq_succ_of_ne_zero (Nat.ne_of_gt hfuel)
      simp [readString]
  | cons c chars ih =>
      obtain ⟨fuel, rfl⟩ := Nat.exists_eq_succ_of_ne_zero (Nat.ne_of_gt (Nat.lt_of_le_of_lt
        (Nat.zero_le _) hfuel))
      rw [List.flatMap_cons, List.append_assoc, readString_escapeChar,
        ih (c :: read) (Nat.lt_of_succ_lt_succ hfuel)]
      simp

theorem length_le_length_flatMap_escapeChar (chars : List Char) :
  chars.length ≤ (chars.flatMap escapeChar).length
  := by
  induction chars with
  | nil => apply Nat.le_refl
  | cons c chars ih =>
      have hpos : 0 < (escapeChar c).length := by
        unfold escapeChar
        split_ifs <;> simp
      rw [List.flatMap_cons, List.length_append, List.length_cons]
      omega

/-- The text of a string after its first quotation mark is read as the string. -/
theorem readString_stringText (s : String) (rest : List Char) :
  readString [] ((s.toList.flatMap escapeChar ++ '"' :: rest).length + 1)
      (s.toList.flatMap escapeChar ++ '"' :: rest) = .ok (s, rest)
  := by
  have hlength := length_le_length_flatMap_escapeChar s.toList
  rw [readString_flatMap]
  · simp
  · rw [List.length_append]
    omega

/-! ### Whole numbers -/

/-- A text that a number in front of it ends before: it does not start with what would be part of
the number. -/
def EndsNumber (text : List Char) : Prop :=
  ∀ c ∈ text.head?, c.isDigit = false ∧ c ≠ '.' ∧ c ≠ 'e' ∧ c ≠ 'E'

/-- A text that does not start with a digit. -/
def EndsDigits (text : List Char) : Prop :=
  ∀ c ∈ text.head?, c.isDigit = false

theorem EndsNumber.endsDigits {text : List Char} (h : EndsNumber text) :
  EndsDigits text
  := fun c hc => (h c hc).1

theorem endsDigits_cons {c : Char} (hc : c.isDigit = false) (rest : List Char) :
  EndsDigits (c :: rest)
  := by
  intro d hd
  obtain rfl : c = d := by simpa using hd
  apply hc

theorem EndsDigits.head?_isDigit {text : List Char} (h : EndsDigits text) :
  (text.head?.map Char.isDigit).getD false = false
  := by
  cases text with
  | nil => rfl
  | cons c rest => apply h c rfl

theorem le_ofDigitChars (n : Nat) (digits : List Char) :
  n ≤ Nat.ofDigitChars 10 digits n
  := by
  induction digits generalizing n with
  | nil => apply Nat.le_refl
  | cons c digits ih =>
      rw [Nat.ofDigitChars_cons]
      have := ih (10 * n + (c.toNat - '0'.toNat))
      omega

/-- Digits of a number that can be held are read up to their end. -/
theorem readDigits_append {digits : List Char} (hdigits : ∀ c ∈ digits, c.isDigit) {n : Nat}
    (count : Nat) {rest : List Char} (hrest : EndsDigits rest)
    (hmax : Nat.ofDigitChars 10 digits n ≤ maxWhole) :
  readDigits n count (digits ++ rest)
    = (Nat.ofDigitChars 10 digits n, count + digits.length, rest)
  := by
  induction digits generalizing n count with
  | nil =>
      cases rest with
      | nil => rfl
      | cons c rest =>
          rw [List.nil_append, readDigits, if_neg]
          · rfl
          · simp [hrest c rfl]
  | cons c digits ih =>
      obtain ⟨hc, hdigits⟩ := List.forall_mem_cons.mp hdigits
      have hnext : n * 10 + (c.toNat - 48) = 10 * n + (c.toNat - '0'.toNat) := by
        rw [Nat.mul_comm]
        rfl
      rw [Nat.ofDigitChars_cons] at hmax
      have hle := le_ofDigitChars (10 * n + (c.toNat - '0'.toNat)) digits
      rw [List.cons_append, readDigits, if_pos hc, hnext]
      dsimp only
      rw [if_neg (by omega), ih hdigits _ hmax, Nat.ofDigitChars_cons, List.length_cons]
      congr 2
      omega

theorem digitChar_ne_zero :
  ∀ n < 10, 0 < n → n.digitChar ≠ '0'
  := by
  decide

/-- The digits of a number that is not zero start with a digit other than zero. -/
theorem exists_toDigits_cons {n : Nat} (h : 0 < n) :
  ∃ c rest, Nat.toDigits 10 n = c :: rest ∧ c ≠ '0'
  := by
  induction n using Nat.strongRecOn with
  | ind n ih =>
      rcases Nat.lt_or_ge n 10 with hlt | hge
      · use n.digitChar, [], Nat.toDigits_of_lt_base hlt
        apply digitChar_ne_zero n hlt h
      · obtain ⟨c, rest, heq, hc⟩ := ih (n / 10) (by omega) (by omega)
        use c, rest ++ [(n % 10).digitChar]
        rw [Nat.toDigits_of_base_le (by omega) hge, heq]
        use rfl

/-- What follows the digits of a whole number decides nothing if it does not belong to it. -/
theorem readNumberTail_of_endsNumber (negative : Bool) (n : Nat) {rest : List Char}
    (hrest : EndsNumber rest) :
  readNumberTail negative n rest
    = if !negative then .ok (.int n, rest)
      else if n == 0 || Nat.pow 2 63 < n then
        .ok (.double (Decimal.signedBits true (Decimal.nearestDouble n)), rest)
      else .ok (.int (-n), rest)
  := by
  cases rest with
  | nil => rfl
  | cons c rest =>
      obtain ⟨-, hpoint, hsmall, hlarge⟩ := hrest c rfl
      rw [readNumberTail]
      · intro later heq
        apply hpoint (List.cons.inj heq).1
      · intro later heq
        apply hsmall (List.cons.inj heq).1
      · intro later heq
        apply hlarge (List.cons.inj heq).1

/-- Digits that do not start with a zero are read up to their end, and then what follows them. -/
theorem readNumber_digits (negative : Bool) {c : Char} {digits : List Char} (hc : c ≠ '0')
    (hdigits : ∀ d ∈ c :: digits, d.isDigit) {rest : List Char} (hrest : EndsDigits rest)
    (hmax : Nat.ofDigitChars 10 (c :: digits) 0 ≤ maxWhole) :
  readNumber negative (c :: digits ++ rest)
    = readNumberTail negative (Nat.ofDigitChars 10 (c :: digits) 0) rest
  := by
  obtain ⟨hfirst, hlater⟩ := List.forall_mem_cons.mp hdigits
  have hvalue : Nat.ofDigitChars 10 (c :: digits) 0 = Nat.ofDigitChars 10 digits (c.toNat - 48) := by
    rw [Nat.ofDigitChars_cons, Nat.mul_zero, Nat.zero_add]
    rfl
  rw [hvalue] at hmax ⊢
  have hread := readDigits_append hlater 0 hrest hmax
  rw [List.cons_append, readNumber, if_pos hfirst, hread]
  · dsimp only
    rw [if_neg]
    simp [hrest.head?_isDigit]
  · apply hc

/-- The digits of a number that can be held are read as that number. -/
theorem readNumber_toDigits (negative : Bool) {n : Nat} (hn : n ≤ maxWhole) {rest : List Char}
    (hrest : EndsDigits rest) :
  readNumber negative (Nat.toDigits 10 n ++ rest) = readNumberTail negative n rest
  := by
  rcases Nat.eq_zero_or_pos n with rfl | hpos
  · rw [Nat.toDigits_zero, List.singleton_append, readNumber, hrest.head?_isDigit]
    rfl
  · obtain ⟨c, digits, heq, hc⟩ := exists_toDigits_cons hpos
    have hdigits : ∀ d ∈ c :: digits, d.isDigit := by
      intro d hd
      rw [← heq] at hd
      apply Nat.isDigit_of_mem_toDigits (by omega) (by omega) hd
    have hvalue : Nat.ofDigitChars 10 (c :: digits) 0 = n := by
      rw [← heq, Nat.ofDigitChars_ten_toDigits]
    rw [heq, readNumber_digits negative hc hdigits hrest (by rw [hvalue]; apply hn), hvalue]

end Scrutiny.Json
