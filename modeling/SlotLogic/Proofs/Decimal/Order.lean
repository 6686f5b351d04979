import SlotLogic.Decimal.Basic
import Mathlib.Algebra.Order.Field.Power
import Mathlib.Algebra.Order.Field.Rat
import Mathlib.Tactic.Linarith
import Mathlib.Tactic.Positivity

/-!
Contract: decimals are compared by the rational numbers that they stand for.

Owns: the rational number of a decimal, the bounds that its leading place gives, and
the agreement of each comparison with the order of the rational numbers.

Two comparisons that decide without a power of ten are settled here: by sign, and by
leading place. Only at one leading place are coefficients compared.

Does not own: lists of decimals.
-/

set_option autoImplicit false

namespace SlotLogic.Decimal

/-- The number that a decimal stands for, without its sign. -/
def magnitude (number : Decimal) : ℚ :=
  number.coefficient * 10 ^ number.exponent

/-- The number that a decimal stands for. -/
def toRat (number : Decimal) : ℚ :=
  if number.negative then -number.magnitude else number.magnitude

variable {left right : Decimal}

/-! ## Coefficients at one exponent -/

theorem compare_mul_right {first second factor : ℚ} (positive : 0 < factor) :
    compare (first * factor) (second * factor) = compare first second := by
  rw [← cmp_eq_compare, ← cmp_eq_compare, cmp_mul_pos_right positive]

theorem compare_natCast (first second : ℕ) :
    compare (first : ℚ) (second : ℚ) = compare first second := by
  rw [← cmp_eq_compare, ← cmp_eq_compare, Nat.strictMono_cast.cmp_map_eq]

/-- A coefficient that is written at a lower exponent keeps its magnitude. -/
theorem magnitude_at {lower : Int} (number : Decimal) (below : lower ≤ number.exponent) :
    ((number.coefficient * 10 ^ (number.exponent - lower).toNat : ℕ) : ℚ) * 10 ^ lower =
      number.magnitude := by
  have places : ((number.exponent - lower).toNat : ℤ) + lower = number.exponent := by omega
  rw [magnitude, ← places]
  push_cast
  rw [zpow_add₀ (by norm_num), zpow_natCast, mul_assoc]
  rw [places]

theorem compareAligned_eq (left right : Decimal) :
    compareAligned left right = compare left.magnitude right.magnitude := by
  have lowerLeft := magnitude_at left (min_le_left left.exponent right.exponent)
  have lowerRight := magnitude_at right (min_le_right left.exponent right.exponent)
  rw [← lowerLeft, ← lowerRight, compare_mul_right (by positivity), compare_natCast]
  rfl

/-! ## Leading places -/

theorem pow_digitCount_bounds (number : Decimal) (nonzero : number.coefficient ≠ 0) :
    10 ^ (number.digitCount - 1) ≤ number.coefficient ∧
      number.coefficient < 10 ^ number.digitCount := by
  have positive : 0 < number.digitCount := Nat.length_toDigits_pos
  constructor
  · by_cases single : number.digitCount = 1
    · rw [single]
      exact Nat.pos_of_ne_zero nonzero
    · have shorter : ¬number.digitCount ≤ number.digitCount - 1 := by omega
      unfold digitCount at shorter
      rw [Nat.length_toDigits_le_iff (by decide) (by unfold digitCount at *; omega)] at shorter
      exact Nat.le_of_not_lt shorter
  · exact (Nat.length_toDigits_le_iff (by decide) positive).mp (Nat.le_refl _)

/-- A magnitude lies between the powers of ten of its leading place. -/
theorem magnitude_bounds (number : Decimal) (nonzero : number.coefficient ≠ 0) :
    (10 : ℚ) ^ number.adjustedExponent ≤ number.magnitude ∧
      number.magnitude < 10 ^ (number.adjustedExponent + 1) := by
  have positive : 0 < number.digitCount := Nat.length_toDigits_pos
  obtain ⟨low, high⟩ := pow_digitCount_bounds number nonzero
  have lowPlace : number.adjustedExponent = ((number.digitCount - 1 : ℕ) : ℤ) + number.exponent := by
    unfold adjustedExponent
    omega
  have highPlace : number.adjustedExponent + 1 = (number.digitCount : ℤ) + number.exponent := by
    unfold adjustedExponent
    omega
  have unit : (0 : ℚ) < 10 ^ number.exponent := by positivity
  constructor
  · rw [lowPlace, zpow_add₀ (by norm_num), zpow_natCast, magnitude]
    apply mul_le_mul_of_nonneg_right _ unit.le
    exact_mod_cast low
  · rw [highPlace, zpow_add₀ (by norm_num), zpow_natCast, magnitude]
    apply mul_lt_mul_of_pos_right _ unit
    exact_mod_cast high

/-- A higher leading place makes the greater magnitude. -/
theorem magnitude_lt_of_adjustedExponent_lt (leftNonzero : left.coefficient ≠ 0)
    (rightNonzero : right.coefficient ≠ 0)
    (lower : left.adjustedExponent < right.adjustedExponent) :
    left.magnitude < right.magnitude :=
  calc
    left.magnitude < 10 ^ (left.adjustedExponent + 1) := (magnitude_bounds left leftNonzero).2
    _ ≤ 10 ^ right.adjustedExponent := zpow_le_zpow_right₀ (by norm_num) lower
    _ ≤ right.magnitude := (magnitude_bounds right rightNonzero).1

theorem compareMagnitude_eq (leftNonzero : left.coefficient ≠ 0)
    (rightNonzero : right.coefficient ≠ 0) :
    compareMagnitude left right = compare left.magnitude right.magnitude := by
  unfold compareMagnitude
  cases places : compare left.adjustedExponent right.adjustedExponent with
  | lt =>
      have lower := compare_lt_iff_lt.mp places
      exact (compare_lt_iff_lt.mpr
        (magnitude_lt_of_adjustedExponent_lt leftNonzero rightNonzero lower)).symm
  | eq => exact compareAligned_eq left right
  | gt =>
      have higher := compare_gt_iff_gt.mp places
      exact (compare_gt_iff_gt.mpr
        (magnitude_lt_of_adjustedExponent_lt rightNonzero leftNonzero higher)).symm

/-! ## Signs -/

theorem magnitude_pos (number : Decimal) (nonzero : number.coefficient ≠ 0) :
    0 < number.magnitude := by
  have positive : (0 : ℚ) < number.coefficient := by
    exact_mod_cast Nat.pos_of_ne_zero nonzero
  unfold magnitude
  positivity

/-- The sign of a decimal says on which side of zero its number lies. -/
theorem sign_cases (number : Decimal) :
    (number.sign = 0 ∧ number.toRat = 0) ∨
    (number.sign = 1 ∧ number.coefficient ≠ 0 ∧ number.toRat = number.magnitude ∧
      0 < number.toRat) ∨
    (number.sign = -1 ∧ number.coefficient ≠ 0 ∧ number.toRat = -number.magnitude ∧
      number.toRat < 0) := by
  by_cases zero : number.coefficient = 0
  · left
    simp [sign, toRat, magnitude, zero]
  · have positive := magnitude_pos number zero
    by_cases negative : number.negative = true
    · right
      right
      have value : number.toRat = -number.magnitude := if_pos negative
      refine ⟨by simp [sign, zero, negative], zero, value, ?_⟩
      linarith
    · right
      left
      have value : number.toRat = number.magnitude := if_neg negative
      refine ⟨by simp [sign, zero, negative], zero, value, ?_⟩
      linarith

theorem toRat_lt_of_sign_lt (lower : left.sign < right.sign) : left.toRat < right.toRat := by
  rcases sign_cases left with ⟨leftSign, leftZero⟩ | ⟨leftSign, -, -, leftPositive⟩ |
      ⟨leftSign, -, -, leftNegative⟩ <;>
    rcases sign_cases right with ⟨rightSign, rightZero⟩ | ⟨rightSign, -, -, rightPositive⟩ |
      ⟨rightSign, -, -, rightNegative⟩ <;>
    rw [leftSign, rightSign] at lower <;>
    linarith

theorem compare_neg (first second : ℚ) : compare (-first) (-second) = compare second first := by
  rcases lt_trichotomy first second with less | same | greater
  · rw [compare_gt_iff_gt.mpr less, compare_gt_iff_gt.mpr (neg_lt_neg less)]
  · rw [same, compare_eq_iff_eq.mpr rfl, compare_eq_iff_eq.mpr rfl]
  · rw [compare_lt_iff_lt.mpr greater, compare_lt_iff_lt.mpr (neg_lt_neg greater)]

/-- Decimals compare as the numbers that they stand for. -/
theorem compareValue_eq (left right : Decimal) :
    left.compareValue right = compare left.toRat right.toRat := by
  unfold compareValue
  cases signs : compare left.sign right.sign with
  | lt => exact (compare_lt_iff_lt.mpr (toRat_lt_of_sign_lt (compare_lt_iff_lt.mp signs))).symm
  | gt => exact (compare_gt_iff_gt.mpr (toRat_lt_of_sign_lt (compare_gt_iff_gt.mp signs))).symm
  | eq =>
      have same := compare_eq_iff_eq.mp signs
      simp only
      rcases sign_cases left with ⟨leftSign, leftZero⟩ | ⟨leftSign, leftNonzero, leftValue, -⟩ |
          ⟨leftSign, leftNonzero, leftValue, -⟩ <;>
        rcases sign_cases right with ⟨rightSign, rightZero⟩ |
          ⟨rightSign, rightNonzero, rightValue, -⟩ | ⟨rightSign, rightNonzero, rightValue, -⟩ <;>
        rw [leftSign, rightSign] at same <;>
        cases same
      · rw [if_pos leftSign, leftZero, rightZero, compare_eq_iff_eq.mpr rfl]
      · rw [if_neg (by omega), if_pos leftSign, compareMagnitude_eq leftNonzero rightNonzero,
          leftValue, rightValue]
      · rw [if_neg (by omega), if_neg (by omega), compareMagnitude_eq rightNonzero leftNonzero,
          leftValue, rightValue, compare_neg]

theorem less_iff : left.less right = true ↔ left.toRat < right.toRat := by
  rw [less, compareValue_eq, beq_iff_eq, compare_lt_iff_lt]

theorem same_iff : left.same right = true ↔ left.toRat = right.toRat := by
  rw [same, compareValue_eq, beq_iff_eq, compare_eq_iff_eq]

end SlotLogic.Decimal
