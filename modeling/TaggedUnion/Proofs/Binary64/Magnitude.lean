/-
The values of binary64 numbers, as rationals. A magnitude is `e · 2 ^ 52 + m`, where `m` counts units of
`2 ^ (e - 1074)`; it has 53 bits, or the unit is the least one. The next magnitude is one unit away, also
where `m` runs over into the next binade, so the values grow with the magnitudes.
-/
import Mathlib.Algebra.Order.Field.Power
import Mathlib.Algebra.Order.Field.Rat
import Mathlib.Algebra.Order.Group.Abs
import Mathlib.Order.Monotone.Basic
import Mathlib.Tactic.Linarith
import Mathlib.Tactic.NormNum
import Mathlib.Tactic.Positivity
import Mathlib.Tactic.Ring
import TaggedUnion.Binary64.Basic

namespace TaggedUnion.Binary64

/-- The value of a magnitude. Those of infinity and above go on as if the exponent field had more bits. -/
def magnitudeValue (n : Nat) : ℚ :=
  if n < 2 ^ 52 then n * 2 ^ (-1074 : ℤ) else (2 ^ 52 + n % 2 ^ 52 : ℕ) * 2 ^ (((n / 2 ^ 52 : ℕ) : ℤ) - 1075)

def signFactor (negative : Bool) : ℚ := if negative then -1 else 1

/-- The value of a finite number. -/
def value (x : Binary64) : ℚ := signFactor x.isNegative * (x.significand * 2 ^ x.exponent)

def IsFinite (x : Binary64) : Prop := x.magnitude < infiniteMagnitude

theorem significand_mul_exponent (x : Binary64) :
    (x.significand : ℚ) * 2 ^ x.exponent = magnitudeValue x.magnitude := by
  rw [significand, exponent, magnitudeValue, Nat.pow_eq]
  split <;> rfl

theorem value_eq (x : Binary64) : x.value = signFactor x.isNegative * magnitudeValue x.magnitude := by
  rw [value, significand_mul_exponent]

theorem significand_mod_two (x : Binary64) : x.significand % 2 = x.magnitude % 2 := by
  rw [significand, Nat.pow_eq]
  split <;> omega

/-! ## Binades -/

/-- The two forms of a number at the end of a binade agree, so `m` may be `2 ^ 53`. -/
theorem magnitudeValue_eq {e m : Nat} (low : e = 0 ∨ 2 ^ 52 ≤ m) (high : m ≤ 2 ^ 53) :
    magnitudeValue (e * 2 ^ 52 + m) = m * 2 ^ ((e : ℤ) - 1074) := by
  rcases Nat.lt_or_ge m (2 ^ 52) with subnormal | normal
  · obtain rfl : e = 0 := by omega
    rw [magnitudeValue, if_pos (by omega)]
    norm_num
  · rw [magnitudeValue, if_neg (by omega)]
    rcases high.lt_or_eq with inside | rfl
    · have fraction : (e * 2 ^ 52 + m) % 2 ^ 52 = m - 2 ^ 52 := by omega
      have field : (e * 2 ^ 52 + m) / 2 ^ 52 = e + 1 := by omega
      rw [fraction, field, Nat.add_sub_cancel' normal]
      congr 2
      push_cast
      ring
    · have fraction : (e * 2 ^ 52 + 2 ^ 53) % 2 ^ 52 = 0 := by omega
      have field : (e * 2 ^ 52 + 2 ^ 53) / 2 ^ 52 = e + 2 := by omega
      have unit : ((e + 2 : ℕ) : ℤ) - 1075 = (e - 1074) + 1 := by push_cast; ring
      rw [fraction, field, unit, zpow_add_one₀ two_ne_zero]
      push_cast
      ring

theorem exists_binade (n : Nat) : ∃ e m, n = e * 2 ^ 52 + m ∧ (e = 0 ∨ 2 ^ 52 ≤ m) ∧ m < 2 ^ 53 := by
  rcases Nat.lt_or_ge n (2 ^ 52) with subnormal | normal
  · exact ⟨0, n, by omega, Or.inl rfl, by omega⟩
  · exact ⟨n / 2 ^ 52 - 1, 2 ^ 52 + n % 2 ^ 52, by omega, Or.inr (by omega), by omega⟩

theorem strictMono_magnitudeValue : StrictMono magnitudeValue := by
  refine strictMono_nat_of_lt_succ fun n => ?_
  obtain ⟨e, m, rfl, low, high⟩ := exists_binade n
  have lowNext : e = 0 ∨ 2 ^ 52 ≤ m + 1 := by omega
  rw [magnitudeValue_eq low high.le, add_assoc, magnitudeValue_eq lowNext high]
  gcongr
  exact m.lt_add_one

@[simp] theorem magnitudeValue_zero : magnitudeValue 0 = 0 := by
  simp [magnitudeValue]

theorem magnitudeValue_one : magnitudeValue 1 = 2 ^ (-1074 : ℤ) := by
  simp [magnitudeValue]

theorem magnitudeValue_nonneg (n : Nat) : 0 ≤ magnitudeValue n :=
  magnitudeValue_zero ▸ strictMono_magnitudeValue.monotone (Nat.zero_le n)

theorem two_zpow_1024 : (2 : ℚ) ^ (1024 : ℤ) = 2 ^ 53 * 2 ^ (971 : ℤ) := by
  have power : (2 : ℚ) ^ 53 = 2 ^ (53 : ℤ) := by norm_cast
  have sum : (1024 : ℤ) = 53 + 971 := by decide
  rw [power, sum, zpow_add₀ two_ne_zero]

theorem magnitudeValue_infinite : magnitudeValue infiniteMagnitude = 2 ^ (1024 : ℤ) := by
  have last : infiniteMagnitude = 2045 * 2 ^ 52 + 2 ^ 53 := by decide
  have unit : ((2045 : ℕ) : ℤ) - 1074 = 971 := by decide
  rw [last, magnitudeValue_eq (Or.inr (by decide)) le_rfl, two_zpow_1024, unit, Nat.cast_pow, Nat.cast_ofNat]

/-- The greatest finite number is one unit below the first power of two that there is not. -/
theorem magnitudeValue_greatest :
    magnitudeValue (infiniteMagnitude - 1) = 2 ^ (1024 : ℤ) - 2 ^ (971 : ℤ) := by
  have last : infiniteMagnitude - 1 = 2045 * 2 ^ 52 + (2 ^ 53 - 1) := by decide
  have unit : ((2045 : ℕ) : ℤ) - 1074 = 971 := by decide
  rw [last, magnitudeValue_eq (Or.inr (by decide)) (by decide), two_zpow_1024, unit, Nat.cast_pred (by decide),
    sub_one_mul, Nat.cast_pow, Nat.cast_ofNat]

/-! ## Signs and magnitudes -/

variable {negative : Bool} {n : Nat}

theorem abs_signFactor_mul (negative : Bool) (v : ℚ) : |signFactor negative * v| = |v| := by
  cases negative <;> simp [signFactor]

theorem abs_signFactor_mul_sub (v w : ℚ) : |signFactor negative * v - signFactor negative * w| = |v - w| := by
  rw [← mul_sub, abs_signFactor_mul]

theorem abs_signFactor_mul_sub_of_ne {other : Bool} (opposite : other ≠ negative) {v w : ℚ} (hv : 0 ≤ v) (hw : 0 ≤ w) :
    |signFactor negative * v - signFactor other * w| = v + w := by
  have sign : signFactor other = -signFactor negative := by
    cases negative <;> cases other <;> simp_all [signFactor]
  rw [sign, neg_mul, sub_neg_eq_add, ← mul_add, abs_signFactor_mul, abs_of_nonneg (add_nonneg hv hw)]

theorem bits_ofMagnitude (h : n < 2 ^ 63) :
    (ofMagnitude negative n).bits.toNat = if negative then 2 ^ 63 + n else n := by
  rw [ofMagnitude, UInt64.toNat_ofNat', Nat.pow_eq]
  split <;> omega

theorem magnitude_ofMagnitude (h : n < 2 ^ 63) : (ofMagnitude negative n).magnitude = n := by
  rw [magnitude, bits_ofMagnitude h, Nat.pow_eq]
  split <;> omega

theorem isNegative_ofMagnitude (h : n < 2 ^ 63) : (ofMagnitude negative n).isNegative = negative := by
  rw [isNegative, bits_ofMagnitude h, Nat.pow_eq]
  cases negative with
  | false => simpa using h
  | true => simp

end TaggedUnion.Binary64
