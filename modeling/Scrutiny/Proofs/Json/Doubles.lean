import Scrutiny.Proofs.Decimal.Shortest
import Scrutiny.Proofs.Json.RoundTrip

/-!
# Doubles read back

The text of a double is read as a double, and as null if it is no number.  It need not be the same
double, but no double is written as a text that cannot be read.
-/

namespace Scrutiny.Json

open Decimal

/-! ### What follows the whole digits -/

theorem readTail_of_endsNumber (negative : Bool) (n : Nat) (e : Int) {rest : List Char}
    (hrest : EndsNumber rest) :
  readTail negative n e rest = makeDouble negative n e rest
  := by
  cases rest with
  | nil => rfl
  | cons c rest =>
      obtain ⟨-, -, hsmall, hlarge⟩ := hrest c rfl
      rw [readTail]
      · intro later heq
        apply hsmall (List.cons.inj heq).1
      · intro later heq
        apply hlarge (List.cons.inj heq).1

/-- The digits of a fraction are read up to their end, and then what follows them. -/
theorem readFraction_digits (negative : Bool) (n : Nat) (e : Int) {digits : List Char}
    (hne : digits ≠ []) (hdigits : ∀ d ∈ digits, d.isDigit) {rest : List Char}
    (hrest : EndsDigits rest) (hmax : Nat.ofDigitChars 10 digits n ≤ maxWhole) :
  readFraction negative n e (digits ++ rest)
    = readTail negative (Nat.ofDigitChars 10 digits n) (e - digits.length) rest
  := by
  have hcount : (digits.length == 0) = false := by
    simpa using hne
  rw [readFraction, readDigits_append hdigits 0 hrest hmax]
  dsimp only
  rw [hrest.head?_isDigit, Nat.zero_add, hcount]
  rfl

/-- The digits of an exponent that can be held are read up to their end. -/
theorem readExponentDigits_append {digits : List Char} (hdigits : ∀ c ∈ digits, c.isDigit) {n : Nat}
    {rest : List Char} (hrest : EndsDigits rest)
    (hmax : Nat.ofDigitChars 10 digits n ≤ maxExponent) :
  readExponentDigits n (digits ++ rest) = (some (Nat.ofDigitChars 10 digits n), rest)
  := by
  induction digits generalizing n with
  | nil =>
      cases rest with
      | nil => rfl
      | cons c rest =>
          rw [List.nil_append, readExponentDigits, if_neg]
          · rfl
          · simp [hrest c rfl]
  | cons c digits ih =>
      obtain ⟨hc, hdigits⟩ := List.forall_mem_cons.mp hdigits
      have hnext : n * 10 + (c.toNat - 48) = 10 * n + (c.toNat - '0'.toNat) := by
        rw [Nat.mul_comm]
        rfl
      rw [Nat.ofDigitChars_cons] at hmax
      have hle := le_ofDigitChars (10 * n + (c.toNat - '0'.toNat)) digits
      rw [List.cons_append, readExponentDigits, if_pos hc, hnext]
      dsimp only
      rw [if_neg (by omega), ih hdigits hmax, Nat.ofDigitChars_cons]

/-- An exponent without a sign. -/
theorem readExponent_toDigits (negative : Bool) (n : Nat) (e : Int) {k : Nat} (hk : k ≤ maxExponent)
    {rest : List Char} (hrest : EndsDigits rest) :
  readExponent negative n e (Nat.toDigits 10 k ++ rest) = makeDouble negative n (e + k) rest
    ∧ readExponent negative n e ('-' :: (Nat.toDigits 10 k ++ rest))
      = makeDouble negative n (e - k) rest
  := by
  obtain ⟨c, digits, heq, hc⟩ := toDigits_cons k
  have hdigits : ∀ d ∈ digits, d.isDigit := by
    intro d hd
    apply Nat.isDigit_of_mem_toDigits (n := k) (b := 10) (by omega) (by omega)
    rw [heq]
    apply List.mem_cons_of_mem _ hd
  have hvalue : Nat.ofDigitChars 10 digits (c.toNat - 48) = k := by
    have h := Nat.ofDigitChars_ten_toDigits (n := k)
    rw [heq, Nat.ofDigitChars_cons, Nat.mul_zero, Nat.zero_add] at h
    apply h
  have hread := readExponentDigits_append hdigits hrest (by rw [hvalue]; apply hk)
  rw [hvalue] at hread
  constructor
  · rw [heq, List.cons_append, readExponent]
    · rw [if_pos hc, hread]
      rfl
    · intro later hplus
      obtain rfl := (List.cons.inj hplus).1
      simp at hc
    · intro later hminus
      obtain rfl := (List.cons.inj hminus).1
      simp at hc
  · rw [heq, List.cons_append, readExponent, if_pos hc, hread]
    rfl

/-- An exponent as it is written. -/
theorem readExponent_toString (negative : Bool) (n : Nat) (e : Int) {k : Int}
    (hlow : -(maxExponent : Int) ≤ k) (hhigh : k ≤ maxExponent) {rest : List Char}
    (hrest : EndsDigits rest) :
  readExponent negative n e ((toString k).toList ++ rest) = makeDouble negative n (e + k) rest
  := by
  have htext : (toString k).toList = k.repr.toList := rfl
  rw [Int.repr_eq_if] at htext
  split at htext
  · rename_i hpos
    rw [Nat.toList_repr] at htext
    have hread := (readExponent_toDigits negative n e (k := k.toNat) (by omega) hrest).1
    rw [htext, hread, Int.toNat_of_nonneg hpos]
  · rename_i hneg
    rw [String.toList_append, Nat.toList_repr] at htext
    have hread := (readExponent_toDigits negative n e (k := (-k).toNat) (by omega) hrest).2
    have hminus : "-".toList ++ Nat.toDigits 10 (-k).toNat ++ rest
        = '-' :: (Nat.toDigits 10 (-k).toNat ++ rest) := rfl
    have hsum : e - ((-k).toNat : Int) = e + k := by omega
    rw [htext, hminus, hread, hsum]

/-! ### Decimals -/

/-- The text is read as whole digits with the value `n`. -/
structure ReadsWhole (text : List Char) (n : Nat) : Prop where
  starts : ∃ c rest, text = c :: rest ∧ c.isDigit
  reads : ∀ negative rest, EndsDigits rest →
    readNumber negative (text ++ rest) = readNumberTail negative n rest

theorem readsWhole_zero :
  ReadsWhole ['0'] 0
  := by
  constructor
  · use '0', []
    decide
  · intro negative rest hrest
    apply readNumber_toDigits negative (Nat.zero_le _) hrest

/-- The text is the digits of `n`, which do not start with a zero. -/
structure IsNumeral (digits : List Char) (n : Nat) : Prop where
  starts : ∃ c rest, digits = c :: rest ∧ c ≠ '0'
  isDigit : ∀ c ∈ digits, c.isDigit
  value : Nat.ofDigitChars 10 digits 0 = n

theorem isNumeral_toDigits {n : Nat} (h : 0 < n) :
  IsNumeral (Nat.toDigits 10 n) n
  := by
  constructor
  · apply exists_toDigits_cons h
  · intro c hc
    apply Nat.isDigit_of_mem_toDigits (by omega) (by omega) hc
  · apply Nat.ofDigitChars_ten_toDigits

theorem IsNumeral.readsWhole {digits : List Char} {n : Nat} (h : IsNumeral digits n)
    (hmax : n ≤ maxWhole) :
  ReadsWhole digits n
  := by
  have hvalue := h.value
  have hdigits := h.isDigit
  obtain ⟨c, rest, rfl, hc⟩ := h.starts
  constructor
  · use c, rest, rfl, hdigits c List.mem_cons_self
  · intro negative later hlater
    rw [readNumber_digits negative hc hdigits hlater (by rw [hvalue]; apply hmax), hvalue]

/-- The digits up to some place, and those after it. -/
theorem IsNumeral.readsWhole_take {digits : List Char} {n : Nat} (h : IsNumeral digits n)
    (hmax : n ≤ maxWhole) {p : Nat} (hp : 0 < p) :
  ReadsWhole (digits.take p) (Nat.ofDigitChars 10 (digits.take p) 0)
    ∧ Nat.ofDigitChars 10 (digits.drop p) (Nat.ofDigitChars 10 (digits.take p) 0) = n
  := by
  have hvalue : Nat.ofDigitChars 10 (digits.drop p) (Nat.ofDigitChars 10 (digits.take p) 0) = n := by
    rw [← Nat.ofDigitChars_append, List.take_append_drop, h.value]
  have htake : IsNumeral (digits.take p) (Nat.ofDigitChars 10 (digits.take p) 0) := by
    constructor
    · obtain ⟨c, rest, rfl, hc⟩ := h.starts
      use c, rest.take (p - 1), List.take_cons hp, hc
    · intro c hc
      apply h.isDigit c (List.mem_of_mem_take hc)
    · rfl
  constructor
  · apply htake.readsWhole
    apply le_trans _ hmax
    rw [← hvalue]
    apply le_ofDigitChars
  · apply hvalue

/-- The text is read as the decimal `n * 10 ^ e`. -/
structure ReadsDecimal (text : List Char) (n : Nat) (e : Int) : Prop where
  starts : ∃ c rest, text = c :: rest ∧ c.isDigit
  reads : ∀ negative rest, EndsNumber rest →
    readNumber negative (text ++ rest) = makeDouble negative n e rest

theorem isDigit_of_mem_zero : ∀ d ∈ ['0'], d.isDigit
  := by
  rw [List.forall_mem_singleton]
  rfl

variable {front back : List Char} {n : Nat}

theorem ReadsWhole.starts_append (h : ReadsWhole front n) (later : List Char) :
  ∃ c rest, front ++ later = c :: rest ∧ c.isDigit
  := by
  obtain ⟨c, rest, rfl, hc⟩ := h.starts
  use c, rest ++ later, rfl

/-- Whole digits and a fraction. -/
theorem readsDecimal_point (hfront : ReadsWhole front n) (hne : back ≠ [])
    (hback : ∀ d ∈ back, d.isDigit) (hmax : Nat.ofDigitChars 10 back n ≤ maxWhole) :
  ReadsDecimal (front ++ '.' :: back) (Nat.ofDigitChars 10 back n) (-(back.length : Int))
  := by
  constructor
  · apply hfront.starts_append
  · intro negative rest hrest
    rw [List.append_assoc, List.cons_append, hfront.reads _ _ (endsDigits_cons (by decide) _),
      readNumberTail, readFraction_digits negative n 0 hne hback hrest.endsDigits hmax, zero_sub,
      readTail_of_endsNumber _ _ _ hrest]

/-- Whole digits and an exponent. -/
theorem readsDecimal_exponent (hfront : ReadsWhole front n) {k : Int}
    (hlow : -(maxExponent : Int) ≤ k) (hhigh : k ≤ maxExponent) :
  ReadsDecimal (front ++ 'e' :: (toString k).toList) n k
  := by
  constructor
  · apply hfront.starts_append
  · intro negative rest hrest
    rw [List.append_assoc, List.cons_append, hfront.reads _ _ (endsDigits_cons (by decide) _),
      readNumberTail, readExponent_toString negative n 0 hlow hhigh hrest.endsDigits, zero_add]

/-- Whole digits, a fraction and an exponent. -/
theorem readsDecimal_point_exponent (hfront : ReadsWhole front n) (hne : back ≠ [])
    (hback : ∀ d ∈ back, d.isDigit) (hmax : Nat.ofDigitChars 10 back n ≤ maxWhole) {k : Int}
    (hlow : -(maxExponent : Int) ≤ k) (hhigh : k ≤ maxExponent) :
  ReadsDecimal (front ++ '.' :: (back ++ 'e' :: (toString k).toList)) (Nat.ofDigitChars 10 back n)
    (-(back.length : Int) + k)
  := by
  constructor
  · apply hfront.starts_append
  · intro negative rest hrest
    rw [List.append_assoc, List.cons_append, hfront.reads _ _ (endsDigits_cons (by decide) _),
      readNumberTail, List.append_assoc, List.cons_append,
      readFraction_digits negative n 0 hne hback (endsDigits_cons (by decide) _) hmax, zero_sub,
      readTail, readExponent_toString _ _ _ hlow hhigh hrest.endsDigits]

variable {digits : List Char} (h : IsNumeral digits n)
include h

theorem readsDecimal_of_large (hpow : n < 10 ^ digits.length) {k : Nat}
    (hk : digits.length + k ≤ 16) :
  ReadsDecimal (digits ++ List.replicate k '0' ++ ['.', '0']) (10 * (10 ^ k * n)) (-1)
  := by
  have hzeros : IsNumeral (digits ++ List.replicate k '0') (10 ^ k * n) := by
    constructor
    · obtain ⟨c, rest, rfl, hc⟩ := h.starts
      use c, rest ++ List.replicate k '0', rfl
    · intro c hc
      rcases List.mem_append.mp hc with hc | hc
      · apply h.isDigit c hc
      · rw [List.eq_of_mem_replicate hc]
        decide
    · rw [Nat.ofDigitChars_append, h.value, Nat.ofDigitChars_replicate_zero]
  have hle : 10 ^ k * n ≤ 10 ^ 16 :=
    calc
      10 ^ k * n ≤ 10 ^ k * 10 ^ digits.length := Nat.mul_le_mul_left _ (le_of_lt hpow)
      _ = 10 ^ (digits.length + k) := by rw [← Nat.pow_add, Nat.add_comm]
      _ ≤ 10 ^ 16 := Nat.pow_le_pow_right (by omega) hk
  have hmaxWhole : maxWhole = 2 ^ 64 - 1 := rfl
  have hvalue : Nat.ofDigitChars 10 ['0'] (10 ^ k * n) = 10 * (10 ^ k * n) := rfl
  have hread := readsDecimal_point (hzeros.readsWhole (by omega)) (List.cons_ne_nil '0' [])
    isDigit_of_mem_zero (by rw [hvalue]; omega)
  rw [hvalue] at hread
  apply hread

variable (hmax : n ≤ maxWhole)
include hmax

theorem readsDecimal_of_split {p : Nat} (hp : 0 < p) (hlt : p < digits.length) :
  ReadsDecimal (digits.take p ++ '.' :: digits.drop p) n (-((digits.length - p : Nat) : Int))
  := by
  obtain ⟨htake, hvalue⟩ := h.readsWhole_take hmax hp
  have hdrop : digits.drop p ≠ [] := by
    rw [List.ne_nil_iff_length_pos, List.length_drop]
    omega
  have hread := readsDecimal_point htake hdrop
    (fun c hc => h.isDigit c (List.mem_of_mem_drop hc)) (by rw [hvalue]; apply hmax)
  rw [hvalue, List.length_drop] at hread
  apply hread

theorem readsDecimal_of_small (k : Nat) :
  ReadsDecimal ('0' :: '.' :: List.replicate k '0' ++ digits) n (-((k + digits.length : Nat) : Int))
  := by
  have hvalue : Nat.ofDigitChars 10 (List.replicate k '0' ++ digits) 0 = n := by
    rw [Nat.ofDigitChars_append, Nat.ofDigitChars_replicate_zero, Nat.mul_zero, h.value]
  have hdigits : ∀ c ∈ List.replicate k '0' ++ digits, c.isDigit := by
    intro c hc
    rcases List.mem_append.mp hc with hc | hc
    · rw [List.eq_of_mem_replicate hc]
      decide
    · apply h.isDigit c hc
  have hne : List.replicate k '0' ++ digits ≠ [] := by
    obtain ⟨c, rest, rfl, -⟩ := h.starts
    simp
  have hread := readsDecimal_point readsWhole_zero hne hdigits (by rw [hvalue]; apply hmax)
  rw [hvalue, List.length_append, List.length_replicate] at hread
  apply hread

omit h

/-- One digit in front of the point, and an exponent. -/
theorem readsDecimal_of_digits {c c' : Char} {rest : List Char} (h : IsNumeral (c :: c' :: rest) n)
    {k : Int} (hlow : -(maxExponent : Int) ≤ k) (hhigh : k ≤ maxExponent) :
  ReadsDecimal (c :: '.' :: (c' :: rest) ++ 'e' :: (toString k).toList) n
    (-((rest.length + 1 : Nat) : Int) + k)
  := by
  obtain ⟨htake, hvalue⟩ := h.readsWhole_take hmax Nat.one_pos
  have hread := readsDecimal_point_exponent htake (List.cons_ne_nil c' rest)
    (fun d hd => h.isDigit d (List.mem_cons_of_mem _ hd)) (le_of_eq_of_le hvalue hmax) hlow hhigh
  have hvalue' : Nat.ofDigitChars 10 (c' :: rest)
      (Nat.ofDigitChars 10 (List.take 1 (c :: c' :: rest)) 0) = n := hvalue
  rw [hvalue'] at hread
  apply hread

omit hmax

/-- The text of a bounded decimal is read as a decimal with a negative exponent, or as the decimal
itself. -/
theorem exists_readsDecimal {d : Scaled} (hd : d.IsBounded) :
  ∃ n e, ReadsDecimal (decimalText d) n e ∧ (e < 0 ∨ n = d.digits ∧ e = d.exponent)
  := by
  have htext : (toString d.digits).toList = Nat.toDigits 10 d.digits := Nat.toList_repr
  have hnumeral := isNumeral_toDigits hd.digits_pos
  have hpow : d.digits < 10 ^ (Nat.toDigits 10 d.digits).length :=
    (Nat.length_toDigits_le_iff (by omega) Nat.length_toDigits_pos).mp (Nat.le_refl _)
  have hlow := hd.le_exponent
  have hhigh := hd.exponent_lt
  have hmaxExponent : maxExponent = 2 ^ 31 - 1 := rfl
  have hmax : d.digits ≤ maxWhole := by
    apply le_trans hd.digits_le
    decide
  have hpos : 0 < (Nat.toDigits 10 d.digits).length := Nat.length_toDigits_pos
  have hcount : (Nat.toDigits 10 d.digits).length ≤ 18 := by
    rw [Nat.length_toDigits_le_iff (by omega) (by omega)]
    have := hd.digits_le
    omega
  rw [decimalText, htext]
  generalize Nat.toDigits 10 d.digits = digits at hnumeral hpow hpos hcount
  dsimp only
  split
  · rename_i hwhole
    simp only [Bool.and_eq_true, decide_eq_true_eq] at hwhole
    use 10 * (10 ^ d.exponent.toNat * d.digits), -1,
      readsDecimal_of_large hnumeral hpow (by omega)
    left
    omega
  · rename_i hwhole
    simp only [Bool.and_eq_true, decide_eq_true_eq] at hwhole
    split
    · rename_i hsplit
      simp only [Bool.and_eq_true, decide_eq_true_eq] at hsplit
      have hread := readsDecimal_of_split hnumeral hmax (p := (digits.length + d.exponent).toNat)
        (by omega) (by omega)
      use d.digits, -((digits.length - (digits.length + d.exponent).toNat : Nat) : Int), hread
      left
      omega
    · split
      · have hread := readsDecimal_of_small hnumeral hmax (-(digits.length + d.exponent)).toNat
        use d.digits, -(((-(digits.length + d.exponent)).toNat + digits.length : Nat) : Int), hread
        left
        omega
      · obtain ⟨c, rest, rfl, -⟩ := hnumeral.starts
        rw [List.length_cons] at hpos hcount hwhole ⊢
        use d.digits, d.exponent
        constructor
        · cases rest with
          | nil =>
              have hread := readsDecimal_exponent (hnumeral.readsWhole hmax) (k := d.exponent)
                (by omega) (by omega)
              have hexponent : ((([] : List Char).length + 1 : Nat) : Int) + d.exponent - 1
                  = d.exponent := by simp
              rw [hexponent]
              apply hread
          | cons c' rest =>
              have hread := readsDecimal_of_digits hmax hnumeral
                (k := (((c' :: rest).length + 1 : Nat) : Int) + d.exponent - 1) (by omega) (by omega)
              have hexponent : -((rest.length + 1 : Nat) : Int)
                  + ((((c' :: rest).length + 1 : Nat) : Int) + d.exponent - 1) = d.exponent := by
                rw [List.length_cons]
                omega
              rw [hexponent] at hread
              apply hread
        · right
          use rfl

/-! ### Values -/

theorem exists_scaledDouble?_of_neg (negative : Bool) (n : Nat) {e : Int} (he : e < 0) :
  ∃ bits, scaledDouble? negative n e = some bits
  := by
  rw [scaledDouble?]
  dsimp only
  rw [if_neg (by omega)]
  use signedBits negative (scaleDown (nearestDouble n) (-e).toNat ((-e).toNat / 308 + 1))

/-- A decimal with or without a minus sign is read as a double, unless it is too large. -/
theorem ReadsDecimal.readsAs {text : List Char} {e : Int} (h : ReadsDecimal text n e)
    {negative : Bool} {bits : UInt64} (hbits : scaledDouble? negative n e = some bits)
    {number : Number} (htext : numberText number = if negative then '-' :: text else text) :
  ReadsAs number (.number (.double bits))
  := by
  have hread {rest : List Char} (hrest : EndsNumber rest) :
      readNumber negative (text ++ rest) = .ok (.double bits, rest) := by
    rw [h.reads negative rest hrest, makeDouble, hbits]
  obtain ⟨c, later, heq, hc⟩ := h.starts
  cases negative with
  | true =>
      rw [if_pos rfl] at htext
      constructor
      · rw [htext]
        use '-', text, rfl
        decide
      · intro depth rest hrest
        rw [htext, List.cons_append, readValue, skipGaps_cons (by decide)]
        dsimp only
        rw [hread hrest]
        rfl
  | false =>
      rw [if_neg Bool.false_ne_true] at htext
      constructor
      · rw [htext, heq]
        use c, later, rfl, isGap_of_isDigit hc
        rintro rfl
        simp at hc
      · intro depth rest hrest
        have hread := hread hrest
        rw [heq, List.cons_append] at hread
        rw [htext, heq, List.cons_append, readValue_of_isDigit hc, hread]
        rfl

/-- Every double is written as a text that can be read: as a double, or as null. -/
theorem exists_readsAs_double (bits : UInt64) :
  ∃ value, ReadsAs (.double bits) value
    ∧ (value = .null ∨ ∃ bits', value = .number (.double bits'))
  := by
  have htext : numberText (.double bits) = doubleText bits := rfl
  rw [doubleText] at htext
  split at htext
  · rename_i negative hbits
    have hzero : ReadsDecimal "0.0".toList 0 (-1) :=
      readsDecimal_point readsWhole_zero (List.cons_ne_nil '0' []) isDigit_of_mem_zero (by decide)
    obtain ⟨bits', hbits'⟩ := exists_scaledDouble?_of_neg negative 0 (by omega : (-1 : Int) < 0)
    use .number (.double bits')
    constructor
    · apply hzero.readsAs hbits'
      rw [htext]
      cases negative <;> rfl
    · right
      use bits'
  · rename_i negative b hbits
    have hbounded := isBounded_shortest (isDouble_of_ofBits_eq_finite hbits)
    obtain ⟨n, e, hread, he⟩ := exists_readsDecimal hbounded
    have hscaled : ∃ bits', scaledDouble? negative n e = some bits' := by
      rcases he with hneg | ⟨rfl, rfl⟩
      · apply exists_scaledDouble?_of_neg negative n hneg
      · apply exists_scaledDouble? negative hbounded.digits_le
        intro he
        apply (Scaled.value_le_largest_iff he).mp hbounded.value_le
    obtain ⟨bits', hbits'⟩ := hscaled
    use .number (.double bits')
    constructor
    · apply hread.readsAs hbits' htext
    · right
      use bits'
  · use .null
    constructor
    · constructor
      · rw [htext]
        use 'n', "ull".toList, rfl
        decide
      · intro depth rest hrest
        rw [htext]
        rfl
    · left
      rfl

end Scrutiny.Json
