import Mathlib.Algebra.Order.Ring.Nat
import Mathlib.Data.Nat.Log
import Mathlib.Tactic.Linarith
import Mathlib.Tactic.Ring
import Scrutiny.Json.Reader

/-!
# Rounding keeps the order

Of two quotients the larger one is not rounded to a smaller double, and products of doubles keep
the order too.  So a decimal that is at most the largest double is never read as an infinity,
since this holds of the largest such decimal with each exponent.
-/

namespace Scrutiny.Decimal

namespace Quotient

/-- The first quotient is at most the second one. -/
def AtMost (a b : Quotient) : Prop :=
  a.num * b.den ≤ b.num * a.den

variable {a b : Quotient}

theorem AtMost.floor_le (hden : 0 < b.den) (h : a.AtMost b) :
  a.floor ≤ b.floor
  := by
  rw [floor, floor, Nat.le_div_iff_mul_le hden]
  by_cases ha : a.den = 0
  · rw [ha, Nat.div_zero, Nat.zero_mul]
    apply Nat.zero_le
  · apply Nat.le_of_mul_le_mul_right _ (Nat.pos_of_ne_zero ha)
    calc
      a.num / a.den * b.den * a.den = a.num / a.den * a.den * b.den := Nat.mul_right_comm ..
      _ ≤ a.num * b.den := Nat.mul_le_mul_right _ (Nat.div_mul_le_self ..)
      _ ≤ b.num * a.den := h

theorem floor_le_nearest (a : Quotient) :
  a.floor ≤ a.nearest
  := by
  rw [nearest]
  split
  · apply Nat.le_succ
  · rfl

theorem nearest_le (a : Quotient) :
  a.nearest ≤ a.floor + 1
  := by
  rw [nearest]
  split
  · rfl
  · apply Nat.le_succ

/-- The larger one of two quotients is rounded to the larger number. -/
theorem AtMost.nearest_le (ha : 0 < a.den) (hb : 0 < b.den) (h : a.AtMost b) :
  a.nearest ≤ b.nearest
  := by
  rcases Nat.lt_or_eq_of_le (h.floor_le hb) with hlt | heq
  · calc
      a.nearest ≤ a.floor + 1 := a.nearest_le
      _ ≤ b.floor := hlt
      _ ≤ b.nearest := b.floor_le_nearest
  · -- The whole parts are the same, so the rests are in the same order.
    have hrest : a.num % a.den * b.den ≤ b.num % b.den * a.den := by
      have hanum := Nat.div_add_mod a.num a.den
      have hbnum := Nat.div_add_mod b.num b.den
      have hfloor : a.num / a.den = b.num / b.den := heq
      have hle : a.num * b.den ≤ b.num * a.den := h
      rw [← hanum, ← hbnum, hfloor] at hle
      have hleft : (a.den * (b.num / b.den) + a.num % a.den) * b.den
          = a.den * b.den * (b.num / b.den) + a.num % a.den * b.den := by ring
      have hright : (b.den * (b.num / b.den) + b.num % b.den) * a.den
          = a.den * b.den * (b.num / b.den) + b.num % b.den * a.den := by ring
      rw [hleft, hright] at hle
      apply Nat.le_of_add_le_add_left hle
    rw [nearest, nearest, heq]
    by_cases hup : (a.den < 2 * (a.num % a.den)
        || (a.den == 2 * (a.num % a.den) && b.floor % 2 == 1)) = true
    · have hup' : (b.den < 2 * (b.num % b.den)
          || (b.den == 2 * (b.num % b.den) && b.floor % 2 == 1)) = true := by
        simp only [Bool.or_eq_true, decide_eq_true_eq, Bool.and_eq_true, beq_iff_eq] at hup ⊢
        rcases hup with hlt | ⟨htie, hodd⟩
        · left
          nlinarith
        · have hle : b.den ≤ 2 * (b.num % b.den) := by nlinarith
          rcases Nat.lt_or_eq_of_le hle with hlt | heq
          · left
            apply hlt
          · right
            use heq, hodd
      rw [if_pos hup, if_pos hup']
    · rw [if_neg hup]
      split
      · apply Nat.le_succ
      · rfl

/-- A quotient that is at most a natural number is rounded to at most this number. -/
theorem nearest_le_of_le (ha : 0 < a.den) {n : Nat} (h : a.num ≤ n * a.den) :
  a.nearest ≤ n
  := by
  have hatMost : a.AtMost ⟨n, 1⟩ := by
    rw [AtMost, Nat.mul_one]
    apply h
  have hnearest : nearest ⟨n, 1⟩ = n := by
    simp [nearest, floor, Nat.mod_one]
  rw [← hnearest]
  apply hatMost.nearest_le ha Nat.one_pos

theorem le_nearest_of_le (ha : 0 < a.den) {n : Nat} (h : n * a.den ≤ a.num) :
  n ≤ a.nearest
  := by
  apply le_trans _ a.floor_le_nearest
  rw [floor, Nat.le_div_iff_mul_le ha]
  apply h

/-! ### Doubles -/

theorem inUnits_den (a : Quotient) :
  a.inUnits.den = a.den
  := rfl

theorem inSteps_den_pos (ha : 0 < a.den) :
  0 < a.inSteps.den
  := Nat.mul_pos ha (Nat.pow_pos Nat.two_pos)

theorem AtMost.step_le (hb : 0 < b.den) (h : a.AtMost b) :
  a.step ≤ b.step
  := by
  have hunits : a.inUnits.AtMost b.inUnits := by
    rw [AtMost, inUnits, inUnits, Nat.mul_right_comm, Nat.mul_right_comm b.num]
    apply Nat.mul_le_mul_right _ h
  rw [step, step, Nat.log2_eq_log_two, Nat.log2_eq_log_two]
  apply Nat.sub_le_sub_right
  apply Nat.log_mono_right
  have hden : 0 < b.inUnits.den := hb
  apply hunits.floor_le hden

/-- The mantissa has at most 53 bits, before rounding. -/
theorem inSteps_num_le (ha : 0 < a.den) :
  a.inSteps.num ≤ 2 ^ 53 * a.inSteps.den
  := by
  have hlog : Nat.log2 a.inUnits.floor < a.step + 53 := by
    rw [step]
    omega
  have hlt : a.inUnits.floor < 2 ^ (a.step + 53) := by
    by_cases hzero : a.inUnits.floor = 0
    · rw [hzero]
      apply Nat.pow_pos Nat.two_pos
    · apply (Nat.log2_lt hzero).mp hlog
  rw [floor, inUnits_den, Nat.div_lt_iff_lt_mul ha] at hlt
  apply le_trans (le_of_lt hlt)
  have hpow : Nat.pow 2 a.step = 2 ^ a.step := rfl
  rw [inSteps, hpow, Nat.pow_add]
  apply le_of_eq
  ring

/-- The mantissa has at least 53 bits, unless the steps are the smallest ones. -/
theorem le_inSteps_num (ha : 0 < a.den) (hstep : 0 < a.step) :
  2 ^ 52 * a.inSteps.den ≤ a.inSteps.num
  := by
  have hlog : a.step + 52 ≤ Nat.log2 a.inUnits.floor := by
    rw [step] at hstep ⊢
    omega
  have hne : a.inUnits.floor ≠ 0 := by
    intro hzero
    rw [hzero, Nat.log2_zero] at hlog
    omega
  have hle := (Nat.le_log2 hne).mp hlog
  rw [floor, inUnits_den, Nat.le_div_iff_mul_le ha] at hle
  apply le_trans _ hle
  have hpow : Nat.pow 2 a.step = 2 ^ a.step := rfl
  rw [inSteps, hpow, Nat.pow_add]
  apply le_of_eq
  ring

/-- The larger one of two quotients is rounded to the larger double. -/
theorem AtMost.toBits_le (ha : 0 < a.den) (hb : 0 < b.den) (h : a.AtMost b) :
  a.toBits ≤ b.toBits
  := by
  rw [toBits, toBits]
  apply min_le_min_left
  have hpow : Nat.pow 2 52 = 2 ^ 52 := rfl
  rw [hpow]
  rcases Nat.lt_or_eq_of_le (h.step_le hb) with hlt | heq
  · have hsmall := nearest_le_of_le (inSteps_den_pos ha) (inSteps_num_le ha)
    have hlarge := le_nearest_of_le (inSteps_den_pos hb)
      (le_inSteps_num hb (Nat.lt_of_le_of_lt (Nat.zero_le _) hlt))
    omega
  · rw [heq]
    apply Nat.add_le_add_left
    apply AtMost.nearest_le (inSteps_den_pos ha) (inSteps_den_pos hb)
    rw [AtMost, inSteps, inSteps, inUnits, inUnits, heq]
    calc
      a.num * unitsOfOne * (b.den * Nat.pow 2 b.step)
        = a.num * b.den * (unitsOfOne * Nat.pow 2 b.step) := by ring
      _ ≤ b.num * a.den * (unitsOfOne * Nat.pow 2 b.step) := Nat.mul_le_mul_right _ h
      _ = b.num * unitsOfOne * (a.den * Nat.pow 2 b.step) := by ring

/-- The larger bits are those of the larger double. -/
theorem ofBits_num_le {m n : Nat} (h : m ≤ n) :
  (ofBits m).num ≤ (ofBits n).num
  := by
  have hdiv : m / 2 ^ 52 ≤ n / 2 ^ 52 := Nat.div_le_div_right h
  have hfraction : m % 2 ^ 52 < 2 ^ 52 := Nat.mod_lt _ (Nat.pow_pos Nat.two_pos)
  have hpow (k : Nat) : Nat.pow 2 k = 2 ^ k := rfl
  rw [ofBits, ofBits]
  dsimp only
  rw [hpow, hpow, hpow]
  rcases Nat.lt_or_eq_of_le hdiv with hlt | heq
  · have hlarge : 2 ^ 52 * 2 ^ (n / 2 ^ 52 - 1)
        ≤ (2 ^ 52 + n % 2 ^ 52) * 2 ^ (n / 2 ^ 52 - 1) :=
      Nat.mul_le_mul_right _ (Nat.le_add_right _ _)
    rw [if_neg (Nat.ne_of_gt (Nat.lt_of_le_of_lt (Nat.zero_le _) hlt))]
    apply le_trans _ hlarge
    split
    · have hone : 1 ≤ 2 ^ (n / 2 ^ 52 - 1) := Nat.one_le_two_pow
      nlinarith
    · rename_i hzero
      have hexponent : m / 2 ^ 52 - 1 + 1 ≤ n / 2 ^ 52 - 1 := by omega
      calc
        (2 ^ 52 + m % 2 ^ 52) * 2 ^ (m / 2 ^ 52 - 1)
          ≤ (2 ^ 52 + 2 ^ 52) * 2 ^ (m / 2 ^ 52 - 1) :=
            Nat.mul_le_mul_right _ (Nat.add_le_add_left (le_of_lt hfraction) _)
        _ = 2 ^ 52 * 2 ^ (m / 2 ^ 52 - 1 + 1) := by rw [Nat.pow_succ]; ring
        _ ≤ 2 ^ 52 * 2 ^ (n / 2 ^ 52 - 1) :=
            Nat.mul_le_mul_left _ (Nat.pow_le_pow_right Nat.two_pos hexponent)
  · have hrest : m % 2 ^ 52 ≤ n % 2 ^ 52 := by omega
    rw [heq]
    split
    · apply hrest
    · apply Nat.mul_le_mul_right
      apply Nat.add_le_add_left hrest

theorem unitsOfOne_pos :
  0 < unitsOfOne
  := by
  have hpow (k : Nat) : 0 < Nat.pow 2 k := Nat.pow_pos Nat.two_pos
  unfold unitsOfOne
  apply hpow

theorem ofBits_den_pos (bits : Nat) :
  0 < (ofBits bits).den
  := by
  rw [ofBits]
  apply unitsOfOne_pos

theorem mul_ofBits_den_pos (m n : Nat) :
  0 < ((ofBits m).mul (ofBits n)).den
  := by
  rw [mul]
  apply Nat.mul_pos (ofBits_den_pos m) (ofBits_den_pos n)

end Quotient

theorem nearestDouble_le {m n : Nat} (h : m ≤ n) :
  nearestDouble m ≤ nearestDouble n
  := by
  apply Quotient.AtMost.toBits_le Nat.one_pos Nat.one_pos
  rw [Quotient.AtMost, Nat.mul_one, Nat.mul_one]
  apply h

theorem multiplyDoubles_le {m n k l : Nat} (h : m ≤ n) (h' : k ≤ l) :
  multiplyDoubles m k ≤ multiplyDoubles n l
  := by
  apply Quotient.AtMost.toBits_le (Quotient.mul_ofBits_den_pos m k)
    (Quotient.mul_ofBits_den_pos n l)
  rw [Quotient.AtMost, Quotient.mul, Quotient.mul]
  apply Nat.mul_le_mul
  · apply Nat.mul_le_mul (Quotient.ofBits_num_le h) (Quotient.ofBits_num_le h')
  · rfl

/-- The largest double. -/
def largest : Nat := Nat.pow 2 1024 - Nat.pow 2 971

/-- The largest double has 309 digits, and is not below `10 ^ 308`. -/
theorem largest_bounds :
  Nat.pow 10 17 * Nat.pow 10 291 ≤ largest ∧ largest < Nat.pow 10 309
  := by
  decide +kernel

/-- The largest number up to `10 ^ 17` that is at most the largest double when it is multiplied by
`10 ^ e`. -/
def largestDigits (e : Nat) : Nat :=
  min (Nat.pow 10 17) (largest / Nat.pow 10 e)

/-- Up to the exponent 291 the bound `10 ^ 17` counts. -/
theorem multiplyDoubles_largestDigits :
  ∀ i < 18, multiplyDoubles (nearestDouble (largestDigits (291 + i))) (Json.powerOfTen (291 + i))
    < infinity
  := by
  decide +kernel

theorem multiplyDoubles_lt_infinity {n e : Nat} (hn : n ≤ 10 ^ 17) (he : e ≤ 308)
    (hlargest : n * 10 ^ e ≤ largest) :
  multiplyDoubles (nearestDouble n) (Json.powerOfTen e) < infinity
  := by
  have hpow {i j : Nat} (h : i ≤ j) : Nat.pow 10 i ≤ Nat.pow 10 j :=
    Nat.pow_le_pow_right (by omega) h
  have hcap (k : Nat) (h : Nat.pow 10 17 * Nat.pow 10 k ≤ largest) : n ≤ largestDigits k := by
    apply le_min hn
    apply le_trans hn
    apply (Nat.le_div_iff_mul_le (Nat.pow_pos (by omega : 0 < 10))).mpr h
  rcases Nat.le_total e 291 with hsmall | hlarge
  · apply Nat.lt_of_le_of_lt _ (multiplyDoubles_largestDigits 0 (by omega))
    apply multiplyDoubles_le (nearestDouble_le (hcap 291 largest_bounds.1))
    apply nearestDouble_le
    apply hpow hsmall
  · have hdigits : n ≤ largestDigits e := by
      apply le_min hn
      have hpow : Nat.pow 10 e = 10 ^ e := rfl
      rw [hpow, Nat.le_div_iff_mul_le (Nat.pow_pos (by omega : 0 < 10))]
      apply hlargest
    obtain ⟨i, rfl⟩ := Nat.exists_eq_add_of_le hlarge
    apply Nat.lt_of_le_of_lt _ (multiplyDoubles_largestDigits i (by omega))
    apply multiplyDoubles_le (nearestDouble_le hdigits)
    rfl

theorem largest_lt_pow {e : Nat} (he : 309 ≤ e) :
  largest < 10 ^ e
  := by
  have hpow {i j : Nat} (h : i ≤ j) : Nat.pow 10 i ≤ 10 ^ j :=
    Nat.pow_le_pow_right (by omega) h
  apply Nat.lt_of_lt_of_le largest_bounds.2 (hpow he)

/-- A decimal that is at most the largest double is not too large to be read. -/
theorem exists_scaledDouble? (negative : Bool) {n : Nat} {e : Int} (hn : n ≤ 10 ^ 17)
    (hlargest : 0 ≤ e → n * 10 ^ e.toNat ≤ largest) :
  ∃ bits, Json.scaledDouble? negative n e = some bits
  := by
  rw [Json.scaledDouble?]
  dsimp only
  by_cases hpos : 0 ≤ e
  · have hlargest := hlargest hpos
    rw [if_pos hpos]
    by_cases hsmall : e ≤ 308
    · have hlt := multiplyDoubles_lt_infinity hn (by omega : e.toNat ≤ 308) hlargest
      rw [if_pos hsmall, if_neg (by simpa using Nat.ne_of_lt hlt)]
      use Decimal.signedBits negative (multiplyDoubles (nearestDouble n) (Json.powerOfTen e.toNat))
    · have hzero : n = 0 := by
        by_contra hne
        have he : 309 ≤ e.toNat := by omega
        have hone : 1 * 10 ^ e.toNat ≤ n * 10 ^ e.toNat :=
          Nat.mul_le_mul_right _ (Nat.one_le_iff_ne_zero.mpr hne)
        rw [Nat.one_mul] at hone
        apply Nat.not_le.mpr (largest_lt_pow he) (le_trans hone hlargest)
      rw [if_neg hsmall, hzero, if_pos (by simp)]
      use Decimal.signedBits negative (nearestDouble 0)
  · rw [if_neg hpos]
    use Decimal.signedBits negative
      (Json.scaleDown (nearestDouble n) (-e).toNat ((-e).toNat / 308 + 1))

end Scrutiny.Decimal
