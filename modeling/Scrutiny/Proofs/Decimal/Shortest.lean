import Mathlib.Algebra.Order.Field.Power
import Mathlib.Data.Rat.Cast.Order
import Mathlib.Tactic.FieldSimp
import Mathlib.Tactic.Linarith
import Mathlib.Tactic.Positivity
import Mathlib.Tactic.Ring
import Scrutiny.Proofs.Decimal.Rounding

/-!
# How large the shortest decimal is

The shortest decimal that is rounded to a double has at most seventeen digits, is not zero, and is
at most the largest double.
-/

namespace Scrutiny.Decimal

namespace Quotient

/-- The value of a quotient. -/
def value (q : Quotient) : ℚ :=
  q.num / q.den

/-- The divisor is not zero. -/
def IsProper (q : Quotient) : Prop :=
  0 < q.den

theorem isProper_scaled (n : Nat) (e : Int) :
  (scaled n e).IsProper
  := by
  rw [scaled]
  split
  · apply Nat.one_pos
  · apply Nat.pow_pos Nat.two_pos

/-- An integer power by the natural number of its exponent. -/
theorem zpow_of_nonneg (a : ℚ) {e : Int} (he : 0 ≤ e) :
  a ^ e = a ^ e.toNat
  := by
  rw [← zpow_natCast, Int.toNat_of_nonneg he]

theorem zpow_of_neg (a : ℚ) {e : Int} (he : ¬ 0 ≤ e) :
  a ^ e = (a ^ (-e).toNat)⁻¹
  := by
  rw [← zpow_natCast, Int.toNat_of_nonneg (by omega), zpow_neg, inv_inv]

theorem value_scaled (n : Nat) (e : Int) :
  (scaled n e).value = n * 2 ^ e
  := by
  have hpow (k : Nat) : Nat.pow 2 k = 2 ^ k := rfl
  rw [scaled]
  split
  · rename_i he
    rw [value, zpow_of_nonneg _ he, hpow]
    push_cast
    ring
  · rename_i he
    rw [value, zpow_of_neg _ he, hpow]
    push_cast
    ring

variable {q : Quotient}

theorem IsProper.shift (hq : q.IsProper) (e : Int) :
  (q.shift e).IsProper
  := by
  rw [Quotient.shift]
  split
  · apply Nat.mul_pos hq (Nat.pow_pos (by omega))
  · apply hq

theorem value_shift (q : Quotient) (e : Int) :
  (q.shift e).value = q.value / 10 ^ e
  := by
  have hpow (k : Nat) : Nat.pow 10 k = 10 ^ k := rfl
  rw [Quotient.shift]
  split
  · rename_i he
    rw [value, value, zpow_of_nonneg _ he, hpow]
    push_cast
    rw [div_div]
  · rename_i he
    rw [value, value, zpow_of_neg _ he, hpow]
    push_cast
    rw [div_inv_eq_mul]
    ring

theorem IsProper.den_pos (hq : q.IsProper) :
  (0 : ℚ) < q.den
  := by
  exact_mod_cast hq

theorem IsProper.floor_le_value (hq : q.IsProper) :
  (q.floor : ℚ) ≤ q.value
  := by
  rw [value, le_div_iff₀ hq.den_pos]
  exact_mod_cast Nat.div_mul_le_self q.num q.den

theorem IsProper.value_lt_floor_add_one (hq : q.IsProper) :
  q.value < q.floor + 1
  := by
  rw [value, div_lt_iff₀ hq.den_pos]
  have h := Nat.lt_div_mul_add hq (a := q.num)
  rw [← Nat.succ_mul] at h
  exact_mod_cast h

theorem IsProper.floor_lt (hq : q.IsProper) {n : Nat} (h : q.value < n) :
  q.floor < n
  := by
  exact_mod_cast lt_of_le_of_lt hq.floor_le_value h

theorem IsProper.le_floor (hq : q.IsProper) {n : Nat} (h : n ≤ q.value) :
  n ≤ q.floor
  := by
  have hlt := lt_of_le_of_lt h hq.value_lt_floor_add_one
  have : n < q.floor + 1 := by exact_mod_cast hlt
  omega

theorem IsProper.of_compareNat_eq_lt (hq : q.IsProper) {n : Nat} (h : q.compareNat n = .lt) :
  n < q.value
  := by
  rw [value, lt_div_iff₀ hq.den_pos]
  exact_mod_cast Nat.compare_eq_lt.mp h

theorem IsProper.of_compareNat_eq_eq (hq : q.IsProper) {n : Nat} (h : q.compareNat n = .eq) :
  n = q.value
  := by
  rw [value, eq_div_iff (ne_of_gt hq.den_pos)]
  exact_mod_cast Nat.compare_eq_eq.mp h

theorem IsProper.of_compareNat_eq_gt (hq : q.IsProper) {n : Nat} (h : q.compareNat n = .gt) :
  q.value < n
  := by
  rw [value, div_lt_iff₀ hq.den_pos]
  exact_mod_cast Nat.compare_eq_gt.mp h

end Quotient

/-! ### The first digit -/

theorem digitCount_spec {fuel n : Nat} (hpos : 0 < n) (hlt : n < 10 ^ fuel) :
  0 < digitCount fuel n ∧ 10 ^ (digitCount fuel n - 1) ≤ n ∧ n < 10 ^ digitCount fuel n
  := by
  induction fuel generalizing n with
  | zero => omega
  | succ fuel ih =>
      rw [digitCount]
      split
      · rename_i hsmall
        simp
        omega
      · rename_i hlarge
        rw [Nat.pow_succ] at hlt
        obtain ⟨hcount, hlow, hhigh⟩ := ih (n := n / 10) (by omega) (by omega)
        obtain ⟨k, hk⟩ := Nat.exists_eq_add_of_lt hcount
        rw [Nat.zero_add] at hk
        rw [hk, Nat.add_sub_cancel] at hlow
        rw [hk] at hhigh
        rw [hk, Nat.add_sub_cancel, Nat.pow_succ, Nat.pow_succ]
        rw [Nat.pow_succ] at hhigh
        omega

theorem leadingZeros_spec (q : Quotient) {fuel i : Nat}
    (hlarge : q.den ≤ q.num * 10 ^ (i + fuel)) (hsmall : q.num * 10 ^ (i - 1) < q.den) :
  q.den ≤ q.num * 10 ^ leadingZeros q fuel i ∧ q.num * 10 ^ (leadingZeros q fuel i - 1) < q.den
    ∧ i ≤ leadingZeros q fuel i ∧ leadingZeros q fuel i ≤ i + fuel
  := by
  have hpow (k : Nat) : Nat.pow 10 k = 10 ^ k := rfl
  induction fuel generalizing i with
  | zero =>
      rw [leadingZeros]
      use hlarge, hsmall
      omega
  | succ fuel ih =>
      rw [leadingZeros, hpow]
      split
      · rename_i hle
        use hle, hsmall
        omega
      · rename_i hlt
        have hnext : i + 1 + fuel = i + (fuel + 1) := by omega
        obtain ⟨hle, hsmall', hi, hfuel⟩ := ih (i := i + 1) (by rwa [hnext])
          (by rw [Nat.add_sub_cancel]; omega)
        use hle, hsmall'
        omega

/-- The first digit of a quotient stands for the power of ten that its magnitude tells. -/
theorem magnitude_spec {q : Quotient} (hq : q.IsProper) (hlow : q.den ≤ q.num * 10 ^ 401)
    (hhigh : q.floor < 10 ^ 400) :
  (10 : ℚ) ^ magnitude q ≤ q.value ∧ q.value < 10 ^ (magnitude q + 1)
    ∧ -401 ≤ magnitude q ∧ magnitude q < 400
  := by
  rw [magnitude]
  split
  · rename_i hle
    have hone : 0 < q.floor := Nat.div_pos hle hq
    obtain ⟨hcount, hlow', hhigh'⟩ := digitCount_spec hone hhigh
    obtain ⟨k, hk⟩ := Nat.exists_eq_add_of_lt hcount
    rw [Nat.zero_add] at hk
    rw [hk, Nat.add_sub_cancel] at hlow'
    rw [hk] at hhigh'
    have hlast : ((k + 1 : Nat) : Int) - 1 = k := by omega
    rw [hk, hlast, zpow_natCast, ← Nat.cast_succ, zpow_natCast]
    constructor
    · apply le_trans _ hq.floor_le_value
      exact_mod_cast hlow'
    constructor
    · apply lt_of_lt_of_le hq.value_lt_floor_add_one
      exact_mod_cast hhigh'
    · have hlt : k < 400 := by
        apply (Nat.pow_lt_pow_iff_right (by omega : 1 < 10)).mp
        apply Nat.lt_of_le_of_lt hlow' hhigh
      omega
  · rename_i hlt
    obtain ⟨hle, hlt', hi, hfuel⟩ : _ ∧ _ ∧ _ ∧ leadingZeros q 400 1 ≤ 1 + 400 :=
      leadingZeros_spec q hlow (by simpa using hlt)
    obtain ⟨k, hk⟩ := Nat.exists_eq_add_of_lt hi
    rw [Nat.zero_add] at hk
    rw [hk] at hle hlt' hfuel
    rw [Nat.add_sub_cancel] at hlt'
    have hnext : -((k + 1 : Nat) : Int) + 1 = -(k : Int) := by omega
    have hle' : (q.den : ℚ) ≤ q.num * 10 ^ (k + 1) := by exact_mod_cast hle
    have hlt'' : (q.num : ℚ) * 10 ^ k < q.den := by exact_mod_cast hlt'
    rw [hk, hnext, zpow_neg, zpow_neg, zpow_natCast, zpow_natCast, Quotient.value]
    constructor
    · rw [inv_eq_one_div, div_le_div_iff₀ (by positivity) hq.den_pos, one_mul]
      apply hle'
    constructor
    · rw [inv_eq_one_div, div_lt_div_iff₀ hq.den_pos (by positivity), one_mul]
      apply hlt''
    · omega

/-! ### Doubles -/

/-- The number is that of a finite double. -/
structure Binary.IsDouble (b : Binary) : Prop where
  mantissa_pos : 0 < b.mantissa
  mantissa_lt : b.mantissa < 2 ^ 53
  le_exponent : -1074 ≤ b.exponent
  exponent_le : b.exponent ≤ 971

theorem isDouble_of_ofBits_eq_finite {bits : UInt64} {negative : Bool} {b : Binary}
    (h : Double.ofBits bits = .finite negative b) :
  b.IsDouble
  := by
  have hfraction : bits.toNat % Nat.pow 2 52 < 2 ^ 52 := Nat.mod_lt _ (Nat.pow_pos Nat.two_pos)
  rw [Double.ofBits] at h
  split at h
  · cases h
  · rename_i hspecial
    split at h
    · split at h
      · cases h
      · rename_i hzero
        obtain ⟨-, rfl⟩ := Double.finite.inj h
        constructor <;> dsimp only
        · apply Nat.pos_of_ne_zero
          simpa using hzero
        · omega
        · omega
        · omega
    · rename_i hnormal
      obtain ⟨-, rfl⟩ := Double.finite.inj h
      have hpos : 0 < bits.toNat / Nat.pow 2 52 % 2048 := by
        apply Nat.pos_of_ne_zero
        simpa using hnormal
      have hexponent : bits.toNat / Nat.pow 2 52 % 2048 < 2047 := by
        apply Nat.lt_of_le_of_ne
        · apply Nat.le_of_lt_succ (Nat.mod_lt _ (by decide))
        · simpa using hspecial
      have hfraction' : Nat.pow 2 52 + bits.toNat % Nat.pow 2 52 < 2 ^ 53 :=
        calc
          _ < Nat.pow 2 52 + 2 ^ 52 := Nat.add_lt_add_left hfraction _
          _ = 2 ^ 53 := by decide
      constructor <;> dsimp only
      · apply Nat.add_pos_left (Nat.pow_pos Nat.two_pos)
      · apply hfraction'
      · omega
      · omega

namespace Binary

variable {b : Binary}

theorem IsDouble.low_pos (hb : b.IsDouble) :
  0 < b.low.value
  := by
  have hmantissa := hb.mantissa_pos
  rw [low, Quotient.value_scaled]
  apply mul_pos
  · have : 0 < 4 * b.mantissa - (if b.narrowBelow then 1 else 2) := by
      split <;> omega
    exact_mod_cast this
  · positivity

/-- Four times the mantissa and more, below any power of two that it is below. -/
theorem scaled_le_largest {n : Nat} {e : Int} (hn : n ≤ 2 ^ 55 - 4) (he : e ≤ 969) :
  (Quotient.scaled n e).value ≤ largest
  := by
  have hlargest : (largest : ℚ) = ((2 ^ 55 - 4 : Nat) : ℚ) * 2 ^ (969 : Int) := by
    have hnat : largest = (2 ^ 55 - 4) * Nat.pow 2 969 := by decide +kernel
    have hpow : Nat.pow 2 969 = 2 ^ 969 := rfl
    rw [hnat, hpow, Nat.cast_mul, Nat.cast_pow, ← zpow_natCast]
    rfl
  rw [Quotient.value_scaled, hlargest]
  apply mul_le_mul
  · exact_mod_cast hn
  · apply zpow_le_zpow_right₀ (by norm_num) he
  · positivity
  · positivity

theorem IsDouble.value_le_largest (hb : b.IsDouble) :
  b.value.value ≤ largest
  := by
  have hmantissa := hb.mantissa_lt
  have hexponent := hb.exponent_le
  apply scaled_le_largest <;> omega

/-- The interval of a double other than the largest one does not reach beyond the largest one. -/
theorem IsDouble.high_le_largest (hb : b.IsDouble)
    (hlargest : b.mantissa + 1 < 2 ^ 53 ∨ b.exponent < 971) :
  b.high.value ≤ largest
  := by
  have hmantissa := hb.mantissa_lt
  have hexponent := hb.exponent_le
  rcases hlargest with hlt | hlt
  · apply scaled_le_largest <;> omega
  · have hdouble : b.high.value = (Quotient.scaled (2 * b.mantissa + 1) (b.exponent - 1)).value := by
      rw [high, Quotient.value_scaled, Quotient.value_scaled]
      have hexponent : b.exponent - 1 = b.exponent - 2 + 1 := by omega
      rw [hexponent, zpow_add_one₀ (by norm_num)]
      push_cast
      ring
    rw [hdouble]
    apply scaled_le_largest <;> omega

/-- The first digit of a double. -/
theorem IsDouble.magnitude_spec (hb : b.IsDouble) :
  (10 : ℚ) ^ magnitude b.value ≤ b.value.value ∧ b.value.value < 10 ^ (magnitude b.value + 1)
    ∧ -401 ≤ magnitude b.value
  := by
  have hpow (k : Nat) : Nat.pow 2 k = 2 ^ k := rfl
  have hpos := hb.mantissa_pos
  have hlt := hb.mantissa_lt
  have hlow := hb.le_exponent
  have hhigh := hb.exponent_le
  have hproper : b.value.IsProper := Quotient.isProper_scaled ..
  have hsmall : b.value.den ≤ b.value.num * 10 ^ 401 := by
    have hone : 1 * 10 ^ 401 ≤ b.value.num * 10 ^ 401 := by
      apply Nat.mul_le_mul_right
      rw [value, Quotient.scaled]
      split
      · apply Nat.mul_pos (by omega) (Nat.pow_pos Nat.two_pos)
      · dsimp only
        omega
    apply le_trans _ hone
    have hbound : Nat.pow 2 1076 ≤ Nat.pow 10 401 := by decide +kernel
    rw [Nat.one_mul]
    apply le_trans _ hbound
    rw [value, Quotient.scaled]
    split
    · apply Nat.one_le_two_pow
    · apply Nat.pow_le_pow_right Nat.two_pos
      omega
  have hlarge : b.value.floor < 10 ^ 400 := by
    apply Nat.lt_of_le_of_lt (Nat.div_le_self ..)
    have hbound : 2 ^ 55 * Nat.pow 2 969 ≤ Nat.pow 10 400 := by decide +kernel
    apply Nat.lt_of_lt_of_le _ hbound
    rw [value, Quotient.scaled]
    split
    · apply Nat.mul_lt_mul_of_lt_of_le (by omega) _ (Nat.pow_pos Nat.two_pos)
      apply Nat.pow_le_pow_right Nat.two_pos
      omega
    · apply Nat.lt_of_lt_of_le _ (Nat.le_mul_of_pos_right _ (Nat.pow_pos Nat.two_pos))
      dsimp only
      omega
  obtain ⟨hlow', hhigh', hmagnitude, -⟩ := Decimal.magnitude_spec hproper hsmall hlarge
  use hlow', hhigh'

/-- A decimal that is accepted lies between the ends of the interval. -/
theorem of_accepts {n : Nat} {e : Int} (h : b.accepts n e) :
  b.low.value ≤ n * 10 ^ e ∧ n * 10 ^ e ≤ b.high.value
  := by
  have hpos : (0 : ℚ) < 10 ^ e := by positivity
  have hlow : (b.low.shift e).IsProper := (Quotient.isProper_scaled ..).shift e
  have hhigh : (b.high.shift e).IsProper := (Quotient.isProper_scaled ..).shift e
  rw [accepts] at h
  simp only [Bool.and_eq_true, Bool.or_eq_true, beq_iff_eq] at h
  obtain ⟨habove, hbelow⟩ := h
  constructor
  · rw [← div_le_iff₀ hpos, ← Quotient.value_shift]
    rcases habove with hgt | ⟨-, heq⟩
    · apply le_of_lt (hlow.of_compareNat_eq_gt hgt)
    · apply le_of_eq (hlow.of_compareNat_eq_eq heq).symm
  · rw [← le_div_iff₀ hpos, ← Quotient.value_shift]
    rcases hbelow with hlt | ⟨-, heq⟩
    · apply le_of_lt (hhigh.of_compareNat_eq_lt hlt)
    · apply le_of_eq (hhigh.of_compareNat_eq_eq heq)

end Binary

theorem of_candidate?_eq_some {b : Binary} {e : Int} {n : Nat} (h : candidate? b e = some n) :
  b.accepts n e ∧ n ≤ (b.value.shift e).floor + 1
  := by
  rw [candidate?] at h
  split at h
  · rename_i hlower hupper
    split at h
    · obtain rfl := Option.some.inj h
      use hlower
      omega
    · obtain rfl := Option.some.inj h
      use hupper
    · obtain rfl := Option.some.inj h
      split
      · use hlower
        omega
      · use hupper
  · rename_i hlower _
    obtain rfl := Option.some.inj h
    use hlower
    omega
  · rename_i hupper
    obtain rfl := Option.some.inj h
    use hupper
  · cases h

/-- The value of a decimal. -/
def Scaled.value (d : Scaled) : ℚ :=
  d.digits * 10 ^ d.exponent

theorem Scaled.value_le_largest_iff {d : Scaled} (he : 0 ≤ d.exponent) :
  d.value ≤ largest ↔ d.digits * 10 ^ d.exponent.toNat ≤ largest
  := by
  rw [value, Quotient.zpow_of_nonneg _ he]
  norm_cast

/-- A decimal of about seventeen digits that is at most the largest double. -/
structure Scaled.IsBounded (d : Scaled) : Prop where
  digits_pos : 0 < d.digits
  digits_le : d.digits ≤ 10 ^ 17
  le_exponent : -417 ≤ d.exponent
  value_le : d.value ≤ largest

theorem isBounded_trimZeros (fuel : Nat) {d : Scaled} (h : d.IsBounded) :
  (trimZeros fuel d).IsBounded
  := by
  induction fuel generalizing d with
  | zero => apply h
  | succ fuel ih =>
      rw [trimZeros]
      split
      · rename_i hzero
        have hpos := h.digits_pos
        have hle := h.digits_le
        have hexponent := h.le_exponent
        simp only [Bool.and_eq_true, beq_iff_eq] at hzero
        apply ih
        constructor
        · dsimp only
          omega
        · dsimp only
          omega
        · dsimp only
          omega
        · apply le_trans (le_of_eq _) h.value_le
          have hdigits : (d.digits : ℚ) = (d.digits / 10 : Nat) * 10 := by
            have : d.digits = d.digits / 10 * 10 := by omega
            exact_mod_cast this
          rw [Scaled.value, Scaled.value, hdigits, zpow_add_one₀ (by norm_num)]
          ring
      · apply h

variable {b : Binary}

/-- With an exponent that leaves no more than seventeen digits, the whole part has no more. -/
theorem floor_shift_lt (hb : b.IsDouble) {e : Int} (he : magnitude b.value - 16 ≤ e) :
  (b.value.shift e).floor < 10 ^ 17
  := by
  have hproper : (b.value.shift e).IsProper := (Quotient.isProper_scaled ..).shift e
  have hpos : (0 : ℚ) < 10 ^ e := by positivity
  apply hproper.floor_lt
  rw [Quotient.value_shift, div_lt_iff₀ hpos]
  apply lt_of_lt_of_le hb.magnitude_spec.2.1
  have hsum : ((10 ^ 17 : Nat) : ℚ) * 10 ^ e = 10 ^ (17 + e) := by
    rw [zpow_add₀ (by norm_num)]
    norm_num
  rw [hsum]
  apply zpow_le_zpow_right₀ (by norm_num)
  omega

/-- The largest number of seventeen digits that is not above a double. -/
theorem isBounded_floor (hb : b.IsDouble) :
  Scaled.IsBounded ⟨(b.value.shift (magnitude b.value - 16)).floor, magnitude b.value - 16⟩
  := by
  obtain ⟨hlow, -, hmagnitude⟩ := hb.magnitude_spec
  have hproper : (b.value.shift (magnitude b.value - 16)).IsProper :=
    (Quotient.isProper_scaled ..).shift _
  have hpos : (0 : ℚ) < 10 ^ (magnitude b.value - 16) := by positivity
  constructor
  · apply hproper.le_floor (n := 1)
    rw [Quotient.value_shift, le_div_iff₀ hpos, Nat.cast_one, one_mul]
    apply le_trans _ hlow
    apply zpow_le_zpow_right₀ (by norm_num)
    omega
  · apply le_of_lt (floor_shift_lt hb (le_refl _))
  · dsimp only
    omega
  · have hle := hproper.floor_le_value
    rw [Quotient.value_shift, le_div_iff₀ hpos] at hle
    apply le_trans hle hb.value_le_largest

/-- The decimals that the search comes to are bounded. -/
theorem isBounded_search (hb : b.IsDouble)
    (hlargest : b.mantissa + 1 < 2 ^ 53 ∨ b.exponent < 971) {fuel : Nat} (hfuel : fuel ≤ 17) :
  (search b (magnitude b.value) fuel).IsBounded
  := by
  have hmagnitude := hb.magnitude_spec.2.2
  induction fuel with
  | zero => apply isBounded_floor hb
  | succ fuel ih =>
      rw [search]
      split
      · rename_i n hn
        obtain ⟨haccepts, hfloor⟩ := of_candidate?_eq_some hn
        obtain ⟨hlow, hhigh⟩ := Binary.of_accepts haccepts
        constructor
        · -- The lower end of the interval is not zero, so the decimal is not zero either.
          apply Nat.pos_of_ne_zero
          rintro rfl
          rw [Nat.cast_zero, zero_mul] at hlow
          apply not_lt.mpr hlow hb.low_pos
        · apply le_trans hfloor
          apply floor_shift_lt hb
          omega
        · dsimp only
          omega
        · apply le_trans hhigh (hb.high_le_largest hlargest)
      · apply ih (by omega)

theorem shortest_largest :
  ∀ narrowBelow, shortest ⟨2 ^ 53 - 1, 971, narrowBelow⟩ = ⟨17976931348623157, 292⟩
  := by
  decide +kernel

/-- The shortest decimal of a double has about seventeen digits and is at most the largest double,
even if the interval of the double reaches beyond it. -/
theorem isBounded_shortest (hb : b.IsDouble) :
  (shortest b).IsBounded
  := by
  by_cases hlargest : b.mantissa + 1 < 2 ^ 53 ∨ b.exponent < 971
  · apply isBounded_trimZeros
    apply isBounded_search hb hlargest (Nat.le_refl 17)
  · have hb' : b = ⟨2 ^ 53 - 1, 971, b.narrowBelow⟩ := by
      have hmantissa := hb.mantissa_lt
      have hexponent := hb.exponent_le
      have hmantissa' : b.mantissa = 2 ^ 53 - 1 := by omega
      have hexponent' : b.exponent = 971 := by omega
      rw [← hmantissa', ← hexponent']
    rw [hb', shortest_largest]
    constructor
    · decide
    · decide
    · decide
    · rw [Scaled.value_le_largest_iff (by decide)]
      have hle : 17976931348623157 * Nat.pow 10 292 ≤ largest := by decide +kernel
      apply hle

theorem Scaled.IsBounded.exponent_lt {d : Scaled} (h : d.IsBounded) :
  d.exponent < 309
  := by
  by_contra hlarge
  have hle := (d.value_le_largest_iff (by omega)).mp h.value_le
  have hlt := largest_lt_pow (e := d.exponent.toNat) (by omega)
  have hone : 1 * 10 ^ d.exponent.toNat ≤ d.digits * 10 ^ d.exponent.toNat :=
    Nat.mul_le_mul_right _ h.digits_pos
  omega

end Scrutiny.Decimal
