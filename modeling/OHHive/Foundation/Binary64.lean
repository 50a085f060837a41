import Mathlib.Algebra.Order.Floor.Ring
import Mathlib.Data.Int.Log
import Mathlib.Data.Rat.Floor
import Mathlib.Tactic.Linarith
import Mathlib.Tactic.NormNum
import Mathlib.Tactic.Positivity

/-! Rounding to the nearest double, for nonnegative rationals of the normal range. -/

namespace OHHive.Foundation.Binary64

/-- The nearest integer, and the even one where two are as near. -/
def roundHalfEven (value : ℚ) : ℤ :=
  let below := ⌊value⌋
  let part := value - below
  if part < 1 / 2 then below
  else if 1 / 2 < part then below + 1
  else if below % 2 = 0 then below else below + 1

/-- How far the doubles around a value are from each other: the significand has 53 bits. -/
def spacing (value : ℚ) : ℚ := 2 ^ (Int.log 2 value - 52)

/-- The double nearest to a value. -/
def nearest (value : ℚ) : ℚ := roundHalfEven (value / spacing value) * spacing value

variable {value first second : ℚ}

theorem abs_roundHalfEven_sub_le (value : ℚ) : |(roundHalfEven value : ℚ) - value| ≤ 1 / 2 := by
  have low := Int.floor_le value
  have high := Int.lt_floor_add_one value
  have near : ∀ whole : ℤ, whole = ⌊value⌋ ∧ value - ⌊value⌋ ≤ 1 / 2 ∨
      whole = ⌊value⌋ + 1 ∧ 1 / 2 ≤ value - ⌊value⌋ → |(whole : ℚ) - value| ≤ 1 / 2 := by
    intro whole side
    rw [abs_le]
    rcases side with ⟨rfl, small⟩ | ⟨rfl, large⟩
    · constructor <;> linarith
    · push_cast
      constructor <;> linarith
  unfold roundHalfEven
  by_cases small : value - ⌊value⌋ < 1 / 2
  · rw [if_pos small]
    exact near _ (Or.inl ⟨rfl, small.le⟩)
  · rw [if_neg small]
    by_cases large : 1 / 2 < value - ⌊value⌋
    · rw [if_pos large]
      exact near _ (Or.inr ⟨rfl, large.le⟩)
    · rw [if_neg large]
      split
      · exact near _ (Or.inl ⟨rfl, not_lt.mp large⟩)
      · exact near _ (Or.inr ⟨rfl, not_lt.mp small⟩)

theorem spacing_pos (value : ℚ) : 0 < spacing value := zpow_pos two_pos _

theorem spacing_le (positive : 0 < value) : spacing value ≤ value / 2 ^ 52 := by
  have power : (2 : ℚ) ^ Int.log 2 value ≤ value := Int.zpow_log_le_self Nat.one_lt_two positive
  have split : spacing value = (2 : ℚ) ^ Int.log 2 value / 2 ^ 52 := by
    rw [spacing, zpow_sub₀ two_ne_zero]
    rfl
  rw [split]
  exact div_le_div_of_nonneg_right power (by positivity)

/-- Rounding is off by at most one part in `2 ^ 53`. -/
theorem abs_nearest_sub_le (nonnegative : 0 ≤ value) : |nearest value - value| ≤ value / 2 ^ 53 := by
  rcases nonnegative.eq_or_lt with rfl | positive
  · have zero : roundHalfEven (0 / spacing 0) = 0 := by
      rw [zero_div]
      norm_num [roundHalfEven]
    rw [nearest, zero]
    simp
  · have scaled : nearest value - value =
        ((roundHalfEven (value / spacing value) : ℚ) - value / spacing value) * spacing value := by
      rw [nearest, sub_mul, div_mul_cancel₀ _ (spacing_pos value).ne']
    have half := abs_roundHalfEven_sub_le (value / spacing value)
    rw [scaled, abs_mul, abs_of_pos (spacing_pos value)]
    calc _ ≤ 1 / 2 * spacing value :=
          mul_le_mul_of_nonneg_right half (spacing_pos value).le
      _ ≤ 1 / 2 * (value / 2 ^ 52) :=
          mul_le_mul_of_nonneg_left (spacing_le positive) (by norm_num)
      _ = value / 2 ^ 53 := by ring

theorem nearest_lt (lower : 0 ≤ first) (upper : 0 ≤ second)
    (apart : first + (first + second) / 2 ^ 53 < second) : nearest first < nearest second := by
  have above := (abs_le.mp (abs_nearest_sub_le lower)).2
  have below := (abs_le.mp (abs_nearest_sub_le upper)).1
  have parts : (first + second) / 2 ^ 53 = first / 2 ^ 53 + second / 2 ^ 53 := add_div _ _ _
  linarith

/-- Rounding keeps the order of values that are the same, or further apart than it is off. -/
theorem nearest_le_nearest_iff (lower : 0 ≤ first) (upper : 0 ≤ second)
    (apart : first ≠ second → (first + second) / 2 ^ 53 < |first - second|) :
    nearest first ≤ nearest second ↔ first ≤ second := by
  constructor
  · intro rounded
    by_contra more
    have greater := not_le.mp more
    have gap := apart greater.ne'
    rw [abs_of_pos (sub_pos.mpr greater)] at gap
    have strictly : nearest second < nearest first :=
      nearest_lt upper lower (by rw [add_comm second first]; linarith)
    exact absurd rounded (not_le.mpr strictly)
  · intro order
    rcases order.eq_or_lt with rfl | below
    · exact le_refl _
    · have gap := apart below.ne
      rw [abs_sub_comm, abs_of_pos (sub_pos.mpr below)] at gap
      exact (nearest_lt lower upper (by linarith)).le

/-- The doubles of two quotients of small numbers are in the order of the quotients. -/
theorem nearest_ratio_le_iff (numerator denominator above below : ℕ) (first : 0 < denominator)
    (second : 0 < below) (proper : numerator ≤ denominator) (fraction : above ≤ below)
    (small : denominator * below ≤ 2 ^ 51) :
    nearest (numerator / denominator) ≤ nearest (above / below) ↔
      numerator * below ≤ above * denominator := by
  have firstPos : (0 : ℚ) < denominator := Nat.cast_pos.mpr first
  have secondPos : (0 : ℚ) < below := Nat.cast_pos.mpr second
  have product : (0 : ℚ) < denominator * below := mul_pos firstPos secondPos
  have lowFirst : (numerator : ℚ) / denominator ≤ 1 :=
    (div_le_one firstPos).mpr (Nat.cast_le.mpr proper)
  have lowSecond : (above : ℚ) / below ≤ 1 := (div_le_one secondPos).mpr (Nat.cast_le.mpr fraction)
  rw [nearest_le_nearest_iff (by positivity) (by positivity)]
  · rw [div_le_div_iff₀ firstPos secondPos]
    exact_mod_cast Iff.rfl
  · intro differs
    have crossed : (numerator : ℚ) / denominator - above / below =
        ((numerator * below - above * denominator : ℤ) : ℚ) / (denominator * below) := by
      push_cast
      rw [div_sub_div _ _ firstPos.ne' secondPos.ne', mul_comm (denominator : ℚ) (above : ℚ)]
    have apart : (numerator * below - above * denominator : ℤ) ≠ 0 := by
      intro zero
      rw [zero, Int.cast_zero, zero_div, sub_eq_zero] at crossed
      exact differs crossed
    have whole : (1 : ℚ) ≤ |((numerator * below - above * denominator : ℤ) : ℚ)| := by
      exact_mod_cast Int.one_le_abs apart
    have bounded : (denominator : ℚ) * below ≤ 2 ^ 51 := by exact_mod_cast small
    rw [crossed, abs_div, abs_of_pos product]
    calc ((numerator : ℚ) / denominator + above / below) / 2 ^ 53
        ≤ 2 / 2 ^ 53 := div_le_div_of_nonneg_right (by linarith) (by positivity)
      _ < 1 / 2 ^ 51 := by norm_num
      _ ≤ 1 / (denominator * below) := one_div_le_one_div_of_le product bounded
      _ ≤ _ := div_le_div_of_nonneg_right whole product.le

end OHHive.Foundation.Binary64
