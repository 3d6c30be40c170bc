/-
Reading a decimal rounds correctly: the number read is nearest to the value of the text, of two nearest ones it is the
one with the even significand, and it is infinite from half a unit above the greatest finite number on.

A quotient is between two neighbouring magnitudes, and rounding chooses one of them. As the values grow with the
magnitudes, all other magnitudes are farther away. The bounds that spare the large powers change nothing.
-/
import Mathlib.Data.Int.Log
import Mathlib.Data.Rat.Floor
import Mathlib.Tactic.FieldSimp
import Mathlib.Tactic.GCongr
import TaggedUnion.Binary64.Read
import TaggedUnion.Proofs.Binary64.Magnitude

namespace TaggedUnion.Binary64

/-! ## The nearest magnitude -/

/-- A magnitude nearest to `v` of all, also of those above infinity, and even if there is another one. -/
structure Nearest (v : ℚ) (n : Nat) : Prop where
  le : ∀ k, |v - magnitudeValue n| ≤ |v - magnitudeValue k|
  even : ∀ k, k ≠ n → |v - magnitudeValue n| = |v - magnitudeValue k| → n % 2 = 0

section Neighbours

variable {v : ℚ} {q : Nat}

theorem sub_lt_abs_sub_of_lt (low : magnitudeValue q ≤ v) {k : Nat} (below : k < q) :
    v - magnitudeValue q < |v - magnitudeValue k| := by
  have farther : magnitudeValue k < magnitudeValue q := strictMono_magnitudeValue below
  rw [abs_of_nonneg (by linarith)]
  linarith

theorem sub_lt_abs_sub_of_gt (high : v ≤ magnitudeValue q) {k : Nat} (above : q < k) :
    magnitudeValue q - v < |v - magnitudeValue k| := by
  have farther : magnitudeValue q < magnitudeValue k := strictMono_magnitudeValue above
  rw [abs_of_nonpos (by linarith)]
  linarith

/-- Of the two neighbours of `v` the nearer one is nearest, and the even one if both are as near. -/
theorem nearest_of_between {n : Nat} (low : magnitudeValue q ≤ v) (high : v ≤ magnitudeValue (q + 1))
    (nearer : n = q ∧ v - magnitudeValue q ≤ magnitudeValue (q + 1) - v ∨
      n = q + 1 ∧ magnitudeValue (q + 1) - v ≤ v - magnitudeValue q)
    (tie : v - magnitudeValue q = magnitudeValue (q + 1) - v → n % 2 = 0) : Nearest v n := by
  have lower : |v - magnitudeValue q| = v - magnitudeValue q := abs_of_nonneg (by linarith)
  have upper : |v - magnitudeValue (q + 1)| = magnitudeValue (q + 1) - v := by
    rw [abs_of_nonpos (by linarith), neg_sub]
  have own : |v - magnitudeValue n| = min (v - magnitudeValue q) (magnitudeValue (q + 1) - v) := by
    rcases nearer with ⟨rfl, nearer⟩ | ⟨rfl, nearer⟩
    · rw [lower, min_eq_left nearer]
    · rw [upper, min_eq_right nearer]
  have farther : ∀ k, k ≠ q → k ≠ q + 1 → |v - magnitudeValue n| < |v - magnitudeValue k| := by
    intro k notLower notUpper
    rw [own]
    rcases Nat.lt_or_gt_of_ne notLower with below | above
    · exact (min_le_left _ _).trans_lt (sub_lt_abs_sub_of_lt low below)
    · exact (min_le_right _ _).trans_lt (sub_lt_abs_sub_of_gt high (by omega))
  constructor
  · intro k
    by_cases isLower : k = q
    · rw [own, isLower, lower]
      exact min_le_left _ _
    · by_cases isUpper : k = q + 1
      · rw [own, isUpper, upper]
        exact min_le_right _ _
      · exact (farther k isLower isUpper).le
  · intro k other same
    by_cases isLower : k = q
    · obtain rfl : n = q + 1 := by omega
      rw [isLower, lower, upper] at same
      exact tie same.symm
    · by_cases isUpper : k = q + 1
      · obtain rfl : n = q := by omega
        rw [isUpper, upper, lower] at same
        exact tie same
      · exact absurd same (farther k isLower isUpper).ne

end Neighbours

/-! ## Rounding a quotient -/

theorem roundDiv_cases (a b : Nat) :
    roundDiv a b = a / b ∧ 2 * (a % b) < b ∨ roundDiv a b = a / b + 1 ∧ b < 2 * (a % b) ∨
      2 * (a % b) = b ∧ roundDiv a b % 2 = 0 ∧ (roundDiv a b = a / b ∨ roundDiv a b = a / b + 1) := by
  simp only [roundDiv]
  split
  · omega
  · split <;> omega

theorem nearest_roundDiv {a b e : Nat} (pos : 0 < b) (low : e = 0 ∨ 2 ^ 52 ≤ a / b) (high : a / b < 2 ^ 53) :
    Nearest ((a : ℚ) / b * 2 ^ ((e : ℤ) - 1074)) (e * 2 ^ 52 + roundDiv a b) := by
  have divisor : (0 : ℚ) < b := by exact_mod_cast pos
  have quotient : (a : ℚ) / b = (a / b : ℕ) + (a % b : ℕ) / b := by
    have split : (a : ℚ) = b * (a / b : ℕ) + (a % b : ℕ) := by exact_mod_cast (Nat.div_add_mod a b).symm
    rw [div_eq_iff divisor.ne', add_mul, div_mul_cancel₀ _ divisor.ne', mul_comm _ (b : ℚ), ← split]
  have less : ((a % b : ℕ) : ℚ) < b := by exact_mod_cast Nat.mod_lt a pos
  have part : (0 : ℚ) < 2 ^ ((e : ℤ) - 1074) / b := by positivity
  -- The neighbours, and how far they are from the quotient in parts of `1 / b` of the unit.
  obtain ⟨q, hq⟩ : ∃ q, q = e * 2 ^ 52 + a / b := ⟨_, rfl⟩
  have below : (a : ℚ) / b * 2 ^ ((e : ℤ) - 1074) - magnitudeValue q
      = (a % b : ℕ) * (2 ^ ((e : ℤ) - 1074) / b) := by
    rw [hq, magnitudeValue_eq low high.le, quotient]
    ring
  have above : magnitudeValue (q + 1) - (a : ℚ) / b * 2 ^ ((e : ℤ) - 1074)
      = (b - (a % b : ℕ)) * (2 ^ ((e : ℤ) - 1074) / b) := by
    rw [hq, add_assoc, magnitudeValue_eq (by omega) high, quotient]
    field_simp
    push_cast
    ring
  have lower : magnitudeValue q ≤ (a : ℚ) / b * 2 ^ ((e : ℤ) - 1074) := by
    rw [← sub_nonneg, below]
    positivity
  have upper : (a : ℚ) / b * 2 ^ ((e : ℤ) - 1074) ≤ magnitudeValue (q + 1) := by
    rw [← sub_nonneg, above]
    exact mul_nonneg (by linarith) part.le
  refine nearest_of_between lower upper ?_ ?_
  · rw [below, above, mul_le_mul_iff_left₀ part, mul_le_mul_iff_left₀ part, le_sub_iff_add_le, sub_le_iff_le_add]
    norm_cast
    rcases roundDiv_cases a b with ⟨rounded, less⟩ | ⟨rounded, more⟩ | ⟨half, -, rounded | rounded⟩ <;> omega
  · rw [below, above, mul_left_inj' part.ne', eq_sub_iff_add_eq]
    norm_cast
    intro half
    rcases roundDiv_cases a b with ⟨-, less⟩ | ⟨-, more⟩ | ⟨-, even, -⟩ <;> omega

theorem zpow_eq_toNat_div (x : ℚ) (k : ℤ) : x ^ k = x ^ k.toNat / x ^ (-k).toNat := by
  rcases Int.le_total 0 k with nonneg | nonpos
  · rw [Int.toNat_of_nonpos (by omega : -k ≤ 0), pow_zero, div_one, ← zpow_natCast, Int.toNat_of_nonneg nonneg]
  · rw [Int.toNat_of_nonpos nonpos, pow_zero, one_div, ← zpow_natCast, Int.toNat_of_nonneg (by omega), zpow_neg,
      inv_inv]

theorem ratioLog2_eq_log {a b : Nat} (ha : 0 < a) (hb : 0 < b) : ratioLog2 a b = Int.log 2 ((a : ℚ) / b) := by
  have numerator : (0 : ℚ) < a := by exact_mod_cast ha
  have divisor : (0 : ℚ) < b := by exact_mod_cast hb
  have isLog : ∀ {k : ℤ}, (2 : ℚ) ^ k ≤ (a : ℚ) / b → (a : ℚ) / b < 2 ^ (k + 1) → k = Int.log 2 ((a : ℚ) / b) := by
    intro k low high
    have pos : 0 < (a : ℚ) / b := div_pos numerator divisor
    have atLeast : k ≤ Int.log 2 ((a : ℚ) / b) :=
      (Int.zpow_le_iff_le_log (b := 2) (by decide) pos).1 (by exact_mod_cast low)
    have below : Int.log 2 ((a : ℚ) / b) < k + 1 :=
      (Int.lt_zpow_iff_log_lt (b := 2) (by decide) pos).1 (by exact_mod_cast high)
    omega
  have aLow : (2 : ℚ) ^ (a.log2 : ℤ) ≤ a := by
    exact_mod_cast Nat.log2_self_le ha.ne'
  have aHigh : (a : ℚ) < 2 ^ ((a.log2 : ℤ) + 1) := by
    exact_mod_cast Nat.lt_log2_self
  have bLow : (2 : ℚ) ^ (b.log2 : ℤ) ≤ b := by
    exact_mod_cast Nat.log2_self_le hb.ne'
  have bHigh : (b : ℚ) < 2 ^ ((b.log2 : ℤ) + 1) := by
    exact_mod_cast Nat.lt_log2_self
  have low : (2 : ℚ) ^ ((a.log2 : ℤ) - b.log2 - 1) ≤ (a : ℚ) / b := by
    rw [le_div_iff₀ divisor]
    calc (2 : ℚ) ^ ((a.log2 : ℤ) - b.log2 - 1) * b
        ≤ 2 ^ ((a.log2 : ℤ) - b.log2 - 1) * 2 ^ ((b.log2 : ℤ) + 1) := by gcongr
      _ = 2 ^ (a.log2 : ℤ) := by rw [← zpow_add₀ two_ne_zero]; congr 1; ring
      _ ≤ a := aLow
  have high : (a : ℚ) / b < 2 ^ ((a.log2 : ℤ) - b.log2 + 1) := by
    rw [div_lt_iff₀ divisor]
    calc (a : ℚ) < 2 ^ ((a.log2 : ℤ) + 1) := aHigh
      _ = 2 ^ ((a.log2 : ℤ) - b.log2 + 1) * 2 ^ (b.log2 : ℤ) := by
        rw [← zpow_add₀ two_ne_zero]; congr 1; ring
      _ ≤ 2 ^ ((a.log2 : ℤ) - b.log2 + 1) * b := by gcongr
  have test : ∀ k : ℤ, b * Nat.pow 2 k.toNat ≤ a * Nat.pow 2 (-k).toNat ↔ (2 : ℚ) ^ k ≤ (a : ℚ) / b := by
    intro k
    have power : (0 : ℚ) < 2 ^ (-k).toNat := by positivity
    rw [zpow_eq_toNat_div, div_le_div_iff₀ power divisor, mul_comm (2 ^ k.toNat : ℚ)]
    exact_mod_cast Iff.rfl
  rw [ratioLog2]
  split
  next fits => exact isLog ((test _).1 fits) high
  next tooGreat =>
    rw [test, not_le] at tooGreat
    exact isLog low (by rwa [sub_add_cancel])

/-- The quotient in a unit, with the power on the side where it is a natural number. -/
theorem div_scaled (a b : Nat) (unit : ℤ) :
    ((a * Nat.pow 2 (-unit).toNat : ℕ) : ℚ) / (b * Nat.pow 2 unit.toNat : ℕ) * 2 ^ unit = (a : ℚ) / b := by
  rw [zpow_eq_toNat_div, Nat.pow_eq, Nat.pow_eq]
  push_cast
  field_simp

/-- A quotient in its unit has 53 bits, or fewer if the unit is the least one. -/
theorem div_unit_bounds {r : ℚ} (ratio : 0 < r) {a b : Nat} (pos : 0 < b) {unit : ℤ}
    (isUnit : unit = max (Int.log 2 r - 52) (-1074)) (scaled : (a : ℚ) / b * 2 ^ unit = r) :
    ((unit + 1074).toNat = 0 ∨ 2 ^ 52 ≤ a / b) ∧ a / b < 2 ^ 53 := by
  have divisor : (0 : ℚ) < b := by exact_mod_cast pos
  have power : (0 : ℚ) < 2 ^ unit := by positivity
  constructor
  · rcases lt_or_ge (-1074) unit with greater | least
    · have own : unit + 52 = Int.log 2 r := by omega
      have atLeast : (2 : ℚ) ^ (unit + 52) ≤ r := by
        rw [own]
        exact_mod_cast Int.zpow_log_le_self (b := 2) (by decide) ratio
      rw [← scaled, zpow_add₀ two_ne_zero, mul_comm, mul_le_mul_iff_left₀ power, le_div_iff₀ divisor] at atLeast
      exact Or.inr ((Nat.le_div_iff_mul_le pos).2 (by exact_mod_cast atLeast))
    · exact Or.inl (by omega)
  · have below : r < 2 ^ (unit + 53) :=
      calc r < 2 ^ (Int.log 2 r + 1) := by
            exact_mod_cast Int.lt_zpow_succ_log_self (b := 2) (by decide) r
        _ ≤ 2 ^ (unit + 53) := zpow_le_zpow_right₀ (by norm_num) (by omega)
    rw [← scaled, zpow_add₀ two_ne_zero, mul_comm, mul_lt_mul_iff_right₀ power, div_lt_iff₀ divisor] at below
    exact (Nat.div_lt_iff_lt_mul pos).2 (by exact_mod_cast below)

theorem nearest_magnitudeOfRatio (a : Nat) {b : Nat} (pos : 0 < b) :
    ∃ n, Nearest ((a : ℚ) / b) n ∧ magnitudeOfRatio a b = min n infiniteMagnitude := by
  rcases a.eq_zero_or_pos with rfl | ha
  · exact ⟨0, ⟨fun k => by simp, fun _ _ _ => rfl⟩, by simp [magnitudeOfRatio]⟩
  rw [magnitudeOfRatio, if_neg ha.ne', ratioLog2_eq_log ha pos]
  obtain ⟨unit, isUnit⟩ : ∃ unit, unit = max (Int.log 2 ((a : ℚ) / b) - 52) (-1074) := ⟨_, rfl⟩
  rw [← isUnit]
  have positive : 0 < b * Nat.pow 2 unit.toNat := Nat.mul_pos pos (Nat.pow_pos (by decide))
  have scaled := div_scaled a b unit
  obtain ⟨low, high⟩ := div_unit_bounds (by positivity) positive isUnit scaled
  have nearest := nearest_roundDiv positive low high
  have exponent : (((unit + 1074).toNat : ℕ) : ℤ) - 1074 = unit := by omega
  rw [exponent, scaled] at nearest
  exact ⟨_, nearest, rfl⟩

/-! ## The shortcuts -/

/-- The magnitude of a number: nearest among the finite ones and infinity, which counts as if it were finite. -/
def RoundsTo (v : ℚ) (n : Nat) : Prop := ∃ k, Nearest v k ∧ n = min k infiniteMagnitude

section Bounds

variable {v : ℚ} {n : Nat}

theorem RoundsTo.lt_two_pow (rounds : RoundsTo v n) : n < 2 ^ 63 := by
  obtain ⟨k, -, rfl⟩ := rounds
  exact (Nat.min_le_right _ _).trans_lt (by decide)

/-- A number is infinite from half a unit above the greatest finite number on. -/
theorem RoundsTo.eq_infinite_iff (rounds : RoundsTo v n) :
    n = infiniteMagnitude ↔ 2 ^ (1024 : ℤ) - 2 ^ (970 : ℤ) ≤ v := by
  obtain ⟨k, nearest, rfl⟩ := rounds
  have half : (0 : ℚ) < 2 ^ (970 : ℤ) := by positivity
  have infinite := magnitudeValue_infinite
  have greatest : magnitudeValue (infiniteMagnitude - 1) = 2 ^ (1024 : ℤ) - 2 ^ (970 : ℤ) * 2 :=
    magnitudeValue_greatest.trans (congrArg _ (zpow_add_one₀ two_ne_zero 970))
  rw [min_eq_right_iff]
  -- The powers are too large for linear arithmetic to look into.
  generalize (2 : ℚ) ^ (970 : ℤ) = half at *
  generalize (2 : ℚ) ^ (1024 : ℤ) = last at *
  constructor
  · intro beyond
    by_contra below
    have farther : magnitudeValue infiniteMagnitude ≤ magnitudeValue k := strictMono_magnitudeValue.monotone beyond
    have near := nearest.le (infiniteMagnitude - 1)
    rw [abs_of_nonpos (by linarith)] at near
    rcases abs_cases (v - magnitudeValue (infiniteMagnitude - 1)) with ⟨h, -⟩ | ⟨h, -⟩ <;> linarith
  · intro atLeast
    by_contra finite
    have low : magnitudeValue k ≤ magnitudeValue (infiniteMagnitude - 1) :=
      strictMono_magnitudeValue.monotone (by omega)
    have near := nearest.le infiniteMagnitude
    rw [abs_of_nonneg (by linarith)] at near
    rcases abs_cases (v - magnitudeValue infiniteMagnitude) with ⟨h, -⟩ | ⟨h, -⟩
    · linarith
    -- Half way, infinity has the even significand.
    · have same : magnitudeValue k = magnitudeValue (infiniteMagnitude - 1) := by linarith
      have odd : k = infiniteMagnitude - 1 := strictMono_magnitudeValue.injective same
      have even := nearest.even infiniteMagnitude (by omega) (by rw [abs_of_nonneg (by linarith)]; linarith)
      rw [odd] at even
      exact absurd even (by decide)

/-- A number is zero below half of the least unit. -/
theorem RoundsTo.eq_zero (rounds : RoundsTo v n) (nonneg : 0 ≤ v) (small : v < 2 ^ (-1075 : ℤ)) : n = 0 := by
  obtain ⟨k, nearest, rfl⟩ := rounds
  rcases k.eq_zero_or_pos with rfl | pos
  · exact Nat.zero_min _
  · have unit : magnitudeValue 1 = 2 ^ (-1075 : ℤ) * 2 :=
      magnitudeValue_one.trans (zpow_add_one₀ two_ne_zero (-1075))
    have least : magnitudeValue 1 ≤ magnitudeValue k := strictMono_magnitudeValue.monotone pos
    have near := nearest.le 0
    generalize (2 : ℚ) ^ (-1075 : ℤ) = half at *
    rw [magnitudeValue_zero, sub_zero, abs_of_nonneg nonneg, abs_of_nonpos (by linarith)] at near
    linarith

end Bounds

/-- A decimal is a quotient of natural numbers. -/
theorem div_eq_mul_zpow (digits : Nat) (exponent : ℤ) :
    ((digits * Nat.pow 10 exponent.toNat : ℕ) : ℚ) / (Nat.pow 10 (-exponent).toNat : ℕ) = digits * 10 ^ exponent := by
  rw [zpow_eq_toNat_div, Nat.pow_eq, Nat.pow_eq]
  push_cast
  ring

theorem roundsTo_magnitudeOfRatio (digits : Nat) (exponent : ℤ) :
    RoundsTo (digits * 10 ^ exponent)
      (magnitudeOfRatio (digits * Nat.pow 10 exponent.toNat) (Nat.pow 10 (-exponent).toNat)) := by
  have positive : 0 < Nat.pow 10 (-exponent).toNat := Nat.pow_pos (by decide)
  obtain ⟨n, nearest, bounded⟩ := nearest_magnitudeOfRatio (digits * Nat.pow 10 exponent.toNat) positive
  rw [div_eq_mul_zpow] at nearest
  exact ⟨n, nearest, bounded⟩

/-- A number with `count` digits is between the powers of ten that have as many digits and one more. -/
theorem pow_length_repr {n : Nat} (pos : 0 < n) :
    (10 : ℚ) ^ ((n.repr.length : ℤ) - 1) ≤ n ∧ (n : ℚ) < 10 ^ (n.repr.length : ℤ) := by
  have count : 0 < n.repr.length := Nat.length_repr_pos
  constructor
  · obtain ⟨k, hk⟩ : ∃ k, n.repr.length = k + 1 := ⟨n.repr.length - 1, by omega⟩
    have notFewer : ¬ n < 10 ^ k := by
      intro fewer
      rcases k.eq_zero_or_pos with rfl | posK
      · omega
      · have := (Nat.length_repr_le_iff posK).2 fewer
        omega
    rw [hk, Nat.cast_succ, add_sub_cancel_right, zpow_natCast]
    exact_mod_cast not_lt.1 notFewer
  · rw [zpow_natCast]
    exact_mod_cast (Nat.length_repr_le_iff count).1 le_rfl

theorem two_zpow_1024_le : (2 : ℚ) ^ (1024 : ℤ) ≤ 10 ^ (309 : ℤ) := by
  have powers : (2 : ℕ) ^ 1024 ≤ 10 ^ 309 := by decide +kernel
  exact_mod_cast powers

theorem ten_zpow_le : (10 : ℚ) ^ (-324 : ℤ) ≤ 2 ^ (-1075 : ℤ) := by
  have powers : (2 : ℕ) ^ 1075 ≤ 10 ^ 324 := by decide +kernel
  rw [zpow_neg, zpow_neg, inv_le_inv₀ (by positivity) (by positivity)]
  exact_mod_cast powers

theorem roundsTo_magnitudeOfDecimal (digits : Nat) (exponent : ℤ) :
    RoundsTo (digits * 10 ^ exponent) (magnitudeOfDecimal digits exponent) := by
  have rounds := roundsTo_magnitudeOfRatio digits exponent
  have power : (0 : ℚ) < 10 ^ exponent := by positivity
  unfold magnitudeOfDecimal
  simp only
  split
  next none =>
    rw [none, Nat.cast_zero, zero_mul]
    exact ⟨0, ⟨fun k => by simp, fun _ _ _ => rfl⟩, (Nat.zero_min _).symm⟩
  next some =>
    obtain ⟨low, high⟩ := pow_length_repr (Nat.pos_of_ne_zero some)
    split
    next large =>
      have huge : (2 : ℚ) ^ (1024 : ℤ) ≤ digits * 10 ^ exponent :=
        calc (2 : ℚ) ^ (1024 : ℤ) ≤ 10 ^ (309 : ℤ) := two_zpow_1024_le
          _ ≤ 10 ^ ((digits.repr.length : ℤ) - 1 + exponent) := zpow_le_zpow_right₀ (by norm_num) (by omega)
          _ = 10 ^ ((digits.repr.length : ℤ) - 1) * 10 ^ exponent := zpow_add₀ (by norm_num) _ _
          _ ≤ digits * 10 ^ exponent := by gcongr
      rw [← rounds.eq_infinite_iff.2 ((sub_le_self _ (by positivity)).trans huge)]
      exact rounds
    next notLarge =>
      split
      next small =>
        have tiny : (digits : ℚ) * 10 ^ exponent < 10 ^ (-324 : ℤ) :=
          calc (digits : ℚ) * 10 ^ exponent < 10 ^ (digits.repr.length : ℤ) * 10 ^ exponent := by gcongr
            _ = 10 ^ ((digits.repr.length : ℤ) + exponent) := (zpow_add₀ (by norm_num) _ _).symm
            _ ≤ 10 ^ (-324 : ℤ) := zpow_le_zpow_right₀ (by norm_num) (by omega)
        rw [← rounds.eq_zero (by positivity) (tiny.trans_le ten_zpow_le)]
        exact rounds
      next => exact rounds

/-! ## The nearest number -/

/-- The number that a value is rounded to: never a NaN, infinite from half a unit above the greatest finite number
on, else nearest of all finite numbers, and if another one is as near, the one with the even significand. -/
structure Rounded (v : ℚ) (x : Binary64) : Prop where
  isNaN_eq : x.isNaN = false
  isInfinite_iff : x.isInfinite = true ↔ 2 ^ (1024 : ℤ) - 2 ^ (970 : ℤ) ≤ |v|
  nearest : x.IsFinite → ∀ y : Binary64, y.IsFinite → |v - x.value| ≤ |v - y.value|
  even : x.IsFinite → ∀ y : Binary64, y.IsFinite → y.value ≠ x.value → |v - x.value| = |v - y.value| →
    x.significand % 2 = 0

theorem rounded_ofMagnitude {v : ℚ} {n : Nat} (negative : Bool) (nonneg : 0 ≤ v) (rounds : RoundsTo v n) :
    Rounded (signFactor negative * v) (ofMagnitude negative n) := by
  have infinite := rounds.eq_infinite_iff
  have small := rounds.lt_two_pow
  obtain ⟨k, nearest, bounded⟩ := rounds
  have magnitude : (ofMagnitude negative n).magnitude = n := magnitude_ofMagnitude small
  have value : (ofMagnitude negative n).value = signFactor negative * magnitudeValue n := by
    rw [value_eq, magnitude, isNegative_ofMagnitude small]
  have nearest : (ofMagnitude negative n).IsFinite → Nearest v n := by
    intro finite
    rw [IsFinite, magnitude] at finite
    obtain rfl : n = k := by omega
    exact nearest
  refine ⟨?_, ?_, ?_, ?_⟩
  · rw [isNaN, magnitude, decide_eq_false_iff_not]
    omega
  · rw [isInfinite, magnitude, beq_iff_eq, abs_signFactor_mul, abs_of_nonneg nonneg, infinite]
  · intro finite y _
    rw [value, value_eq y, abs_signFactor_mul_sub]
    by_cases same : y.isNegative = negative
    · rw [same, abs_signFactor_mul_sub]
      exact (nearest finite).le _
    -- A number of the other sign is not nearer than zero.
    · have zero := (nearest finite).le 0
      have positive := magnitudeValue_nonneg y.magnitude
      rw [magnitudeValue_zero, sub_zero, abs_of_nonneg nonneg] at zero
      rw [abs_signFactor_mul_sub_of_ne same nonneg positive]
      linarith
  · intro finite y _ other tie
    rw [significand_mod_two, magnitude]
    rw [value, value_eq y] at tie other
    rw [abs_signFactor_mul_sub] at tie
    by_cases same : y.isNegative = negative
    · rw [same, abs_signFactor_mul_sub] at tie
      refine (nearest finite).even _ ?_ tie
      intro equal
      exact other (by rw [same, equal])
    · have zero := (nearest finite).le 0
      have positive := magnitudeValue_nonneg y.magnitude
      rw [magnitudeValue_zero, sub_zero, abs_of_nonneg nonneg] at zero
      rw [abs_signFactor_mul_sub_of_ne same nonneg positive] at tie
      rcases n.eq_zero_or_pos with rfl | pos
      · rfl
      · refine (nearest finite).even 0 pos.ne ?_
        rw [magnitudeValue_zero, sub_zero, abs_of_nonneg nonneg]
        linarith

theorem eq_of_magnitude_eq {x y : Binary64} (sign : x.isNegative = y.isNegative) (magnitude : x.magnitude = y.magnitude) :
    x = y := by
  have bits : x.bits.toNat = y.bits.toNat := by
    rw [isNegative, isNegative, decide_eq_decide] at sign
    rw [Binary64.magnitude, Binary64.magnitude] at magnitude
    rw [Nat.pow_eq] at sign magnitude
    have := x.bits.toNat_lt
    have := y.bits.toNat_lt
    omega
  cases x
  cases y
  exact congrArg Binary64.mk (UInt64.toNat_inj.1 bits)

theorem abs_sub_value (v : ℚ) (x : Binary64) :
    |v - x.value| = |signFactor x.isNegative * v - magnitudeValue x.magnitude| := by
  have square : signFactor x.isNegative * signFactor x.isNegative = 1 := by
    cases x.isNegative <;> norm_num [signFactor]
  rw [value_eq, ← abs_signFactor_mul x.isNegative (v - _), mul_sub, ← mul_assoc, square, one_mul]

/-- Two numbers that are as near to a value as each other are both nearest only if they are neighbours, and then the
significand of one of them is odd. -/
theorem Rounded.magnitude_le {v : ℚ} {x y : Binary64} (hx : Rounded v x) (hy : Rounded v y)
    (sign : x.isNegative = y.isNegative) (finite : y.IsFinite) : y.magnitude ≤ x.magnitude := by
  by_contra less
  rw [not_le] at less
  have finite' : x.IsFinite := less.trans finite
  have lower : magnitudeValue x.magnitude < magnitudeValue y.magnitude := strictMono_magnitudeValue less
  have tie : |v - x.value| = |v - y.value| :=
    le_antisymm (hx.nearest finite' y finite) (hy.nearest finite x finite')
  have middle := tie
  rw [abs_sub_value, abs_sub_value, ← sign] at middle
  generalize hw : signFactor x.isNegative * v = w at middle
  have half : w - magnitudeValue x.magnitude = magnitudeValue y.magnitude - w := by
    rcases abs_eq_abs.1 middle with same | opposite <;> linarith
  rcases (Nat.succ_le_iff.2 less).eq_or_lt with next | beyond
  · have differ : y.value ≠ x.value := by
      intro same
      have nonzero : signFactor y.isNegative ≠ 0 := by cases y.isNegative <;> norm_num [signFactor]
      rw [value_eq, value_eq, sign] at same
      exact lower.ne' (mul_left_cancel₀ nonzero same)
    have evenX := hx.even finite' y finite differ tie
    have evenY := hy.even finite x finite' differ.symm tie.symm
    rw [significand_mod_two] at evenX evenY
    omega
  · have small : x.magnitude + 1 < 2 ^ 63 := by
      have last : infiniteMagnitude < 2 ^ 63 := by decide
      have : y.magnitude < infiniteMagnitude := finite
      omega
    have between := hx.nearest finite' (ofMagnitude x.isNegative (x.magnitude + 1)) (by
      rw [IsFinite, magnitude_ofMagnitude small]
      exact beyond.trans finite)
    rw [abs_sub_value, abs_sub_value, isNegative_ofMagnitude small, magnitude_ofMagnitude small, hw] at between
    have above : magnitudeValue x.magnitude < magnitudeValue (x.magnitude + 1) :=
      strictMono_magnitudeValue x.magnitude.lt_add_one
    have below : magnitudeValue (x.magnitude + 1) < magnitudeValue y.magnitude := strictMono_magnitudeValue beyond
    rw [abs_of_nonneg (by linarith)] at between
    have nearer : |w - magnitudeValue (x.magnitude + 1)| < w - magnitudeValue x.magnitude :=
      abs_lt.2 ⟨by linarith, by linarith⟩
    linarith

theorem Rounded.isFinite_iff {v : ℚ} {x : Binary64} (rounded : Rounded v x) :
    x.IsFinite ↔ ¬ 2 ^ (1024 : ℤ) - 2 ^ (970 : ℤ) ≤ |v| := by
  have notNaN := rounded.isNaN_eq
  rw [isNaN, decide_eq_false_iff_not] at notNaN
  rw [← rounded.isInfinite_iff, isInfinite, beq_iff_eq, IsFinite]
  omega

/-- A value and a sign are rounded to one number. -/
theorem Rounded.unique {v : ℚ} {x y : Binary64} (hx : Rounded v x) (hy : Rounded v y)
    (sign : x.isNegative = y.isNegative) : x = y := by
  refine eq_of_magnitude_eq sign ?_
  by_cases infinite : 2 ^ (1024 : ℤ) - 2 ^ (970 : ℤ) ≤ |v|
  · have isInfinite := hx.isInfinite_iff.2 infinite
    have isInfinite' := hy.isInfinite_iff.2 infinite
    rw [Binary64.isInfinite, beq_iff_eq] at isInfinite isInfinite'
    rw [isInfinite, isInfinite']
  · exact le_antisymm (hy.magnitude_le hx sign.symm (hx.isFinite_iff.2 infinite))
      (hx.magnitude_le hy sign (hy.isFinite_iff.2 infinite))

end TaggedUnion.Binary64
