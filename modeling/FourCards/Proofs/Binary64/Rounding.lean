/-
This file says which number a rational one is rounded to and how far off that is at most: rounding
depends on the ratio alone, keeps fifty-three digits and changes no whole number that has as few.
-/

import FourCards.Binary64.Arithmetic
import Mathlib.Tactic
import Mathlib.Data.Rat.Lemmas

namespace FourCards.Binary64

/-- A ratio is rounded down by half a unit at most. -/
theorem nearestEven_lower {denominator : Nat} (numerator : Nat) (positive : 0 < denominator) :
    2 * numerator ≤ 2 * (nearestEven numerator denominator * denominator) + denominator := by
  have whole := Nat.div_add_mod numerator denominator
  have remainder := Nat.mod_lt numerator positive
  rw [Nat.mul_comm denominator] at whole
  simp only [nearestEven]
  split
  · omega
  · split
    · rw [Nat.add_mul]
      omega
    · rw [Nat.add_mul]
      omega

/-- A ratio is rounded up by half a unit at most. -/
theorem nearestEven_upper {denominator : Nat} (numerator : Nat) (positive : 0 < denominator) :
    2 * (nearestEven numerator denominator * denominator) ≤ 2 * numerator + denominator := by
  have whole := Nat.div_add_mod numerator denominator
  have remainder := Nat.mod_lt numerator positive
  rw [Nat.mul_comm denominator] at whole
  simp only [nearestEven]
  split
  · omega
  · split
    · rw [Nat.add_mul]
      omega
    · rename_i notBelow notAbove
      rcases Nat.mod_two_eq_zero_or_one (numerator / denominator) with even | odd
      · rw [even, Nat.add_zero]
        omega
      · rw [odd, Nat.add_mul]
        omega

/-- Rounding to a whole number depends on the ratio only. -/
theorem nearestEven_mul_right (numerator denominator : Nat) {factor : Nat} (positive : 0 < factor) :
    nearestEven (numerator * factor) (denominator * factor) = nearestEven numerator denominator := by
  simp only [nearestEven, Nat.mul_div_mul_right _ _ positive, Nat.mul_mod_mul_right,
    ← Nat.mul_assoc, Nat.mul_lt_mul_right positive]

/-- Rounding to a count of steps depends on the ratio only. -/
theorem roundSteps_mul_right (numerator denominator : Nat) {factor : Nat} (positive : 0 < factor) :
    roundSteps (numerator * factor) (denominator * factor) = roundSteps numerator denominator := by
  simp only [roundSteps, Nat.mul_div_mul_right _ _ positive]
  rw [Nat.mul_right_comm, nearestEven_mul_right _ _ positive]

/-- The rounded steps depend on the ratio alone. -/
theorem roundSteps_congr {numerator denominator other otherDenominator : Nat}
    (positive : 0 < denominator) (otherPositive : 0 < otherDenominator)
    (same : numerator * otherDenominator = other * denominator) :
    roundSteps numerator denominator = roundSteps other otherDenominator := by
  rw [← roundSteps_mul_right numerator denominator otherPositive, same,
    Nat.mul_comm denominator, roundSteps_mul_right _ _ positive]

/-- The last digit kept is worth little against the ratio, or it is worth one step. -/
theorem lastDigit_le (numerator : Nat) {denominator : Nat} (positive : 0 < denominator) :
    (2 : ℚ) ^ surplusDigits (numerator / denominator) ≤ (numerator / denominator : ℚ) / 2 ^ 52 + 1 := by
  have ratio : (0 : ℚ) ≤ (numerator / denominator : ℚ) / 2 ^ 52 := by positivity
  rcases Nat.eq_zero_or_pos (surplusDigits (numerator / denominator)) with none | surplus
  · rw [none, pow_zero]
    linarith
  · have lower := divSurplusLower _ surplus
    generalize surplusDigits (numerator / denominator) = shift at lower ⊢
    rw [Nat.le_div_iff_mul_le (Nat.two_pow_pos _), Nat.le_div_iff_mul_le positive] at lower
    have large : (2 : ℚ) ^ 52 * 2 ^ shift * denominator ≤ numerator := by exact_mod_cast lower
    have positiveCast : (0 : ℚ) < denominator := by exact_mod_cast positive
    have quotient : (2 : ℚ) ^ shift * 2 ^ 52 ≤ numerator / denominator := by
      rw [le_div_iff₀ positiveCast]
      linarith
    have bound := (le_div_iff₀ (by positivity)).mpr quotient
    linarith

/-- The rounded steps are off by half of the last digit that is kept. -/
theorem abs_roundSteps_sub_le (numerator : Nat) {denominator : Nat} (positive : 0 < denominator) :
    |(roundSteps numerator denominator : ℚ) - numerator / denominator| ≤
      (numerator / denominator : ℚ) / 2 ^ 53 + 1 / 2 := by
  have digit := lastDigit_le numerator positive
  simp only [roundSteps]
  generalize surplusDigits (numerator / denominator) = shift at digit ⊢
  have scaled : 0 < denominator * 2 ^ shift := Nat.mul_pos positive (Nat.two_pow_pos _)
  have lower := nearestEven_lower numerator scaled
  have upper := nearestEven_upper numerator scaled
  generalize nearestEven numerator (denominator * 2 ^ shift) = nearest at lower upper ⊢
  have positiveCast : (0 : ℚ) < denominator := by exact_mod_cast positive
  have lowerCast : (2 * numerator : ℚ) ≤ 2 * (nearest * (denominator * 2 ^ shift)) +
      denominator * 2 ^ shift := by exact_mod_cast lower
  have upperCast : (2 * (nearest * (denominator * 2 ^ shift)) : ℚ) ≤ 2 * numerator +
      denominator * 2 ^ shift := by exact_mod_cast upper
  have below : (numerator / denominator : ℚ) ≤ nearest * 2 ^ shift + 2 ^ shift / 2 := by
    rw [div_le_iff₀ positiveCast]
    linarith
  have above : (nearest * 2 ^ shift - 2 ^ shift / 2 : ℚ) ≤ numerator / denominator := by
    rw [le_div_iff₀ positiveCast]
    linarith
  push_cast
  rw [abs_le]
  constructor <;> linarith

/-- The number nearest to a rational one, to fifty-three digits. -/
def rounded (number : ℚ) : ℚ :=
  SignType.sign number * roundSteps (number.num.natAbs * stepsInOne) number.den / stepsInOne

/-- How far rounding goes at most. -/
def roundoff (number : ℚ) : ℚ :=
  |number| / 2 ^ 53 + 1 / (2 * stepsInOne)

/-- There are steps in one. -/
theorem stepsInOne_pos : (0 : ℚ) < stepsInOne := by
  rw [stepsInOne]
  positivity

theorem stepsInOne_ne_zero : (stepsInOne : ℚ) ≠ 0 :=
  stepsInOne_pos.ne'

/-- A magnitude is the ratio of a numerator without its sign to the denominator. -/
theorem natAbs_num_div_den (number : ℚ) : (number.num.natAbs : ℚ) / number.den = |number| := by
  rw [Nat.cast_natAbs, Int.cast_abs, ← abs_of_nonneg (Nat.cast_nonneg (α := ℚ) number.den),
    ← abs_div, Rat.num_div_den]

/-- The steps of a rational number are rounded as any ratio of its magnitude is. -/
theorem roundSteps_eq_rounded {numerator denominator : Nat} {number : ℚ}
    (positive : 0 < denominator)
    (same : (numerator : ℚ) / denominator = |number| * stepsInOne) :
    (SignType.sign number * roundSteps numerator denominator : ℚ) / stepsInOne = rounded number := by
  have positiveCast : (denominator : ℚ) ≠ 0 := by exact_mod_cast positive.ne'
  have ownPositive : (number.den : ℚ) ≠ 0 := by exact_mod_cast number.den_nz
  rw [← natAbs_num_div_den, div_mul_eq_mul_div, div_eq_div_iff positiveCast ownPositive] at same
  rw [rounded, roundSteps_congr positive number.den_pos (by exact_mod_cast same)]

/-- A sign is no larger than one. -/
theorem abs_sign_le_one (number : ℚ) : |(SignType.sign number : ℚ)| ≤ 1 := by
  rcases SignType.sign number with _ | _ | _ <;> norm_num

/-- Rounding goes no further than the roundoff. -/
theorem abs_rounded_sub_le (number : ℚ) : |rounded number - number| ≤ roundoff number := by
  have close := abs_roundSteps_sub_le (number.num.natAbs * stepsInOne) number.den_pos
  rw [Nat.cast_mul, mul_div_right_comm, natAbs_num_div_den] at close
  have split : rounded number - number = SignType.sign number *
      ((roundSteps (number.num.natAbs * stepsInOne) number.den - |number| * stepsInOne) /
        stepsInOne) := by
    rw [sub_div, mul_div_cancel_right₀ _ stepsInOne_ne_zero, mul_sub, sign_mul_abs, rounded,
      mul_div_assoc]
  have unit : (|number| * stepsInOne / 2 ^ 53 + 1 / 2) / stepsInOne = roundoff number := by
    rw [roundoff, add_div, div_right_comm, mul_div_cancel_right₀ _ stepsInOne_ne_zero, div_div]
  calc |rounded number - number|
      = |(SignType.sign number : ℚ)| *
          (|(roundSteps (number.num.natAbs * stepsInOne) number.den : ℚ) - |number| * stepsInOne| /
            stepsInOne) := by rw [split, abs_mul, abs_div, abs_of_pos stepsInOne_pos]
    _ ≤ 1 * ((|number| * stepsInOne / 2 ^ 53 + 1 / 2) / stepsInOne) := by
        refine mul_le_mul (abs_sign_le_one number) ?_ (by positivity) zero_le_one
        exact div_le_div_of_nonneg_right close stepsInOne_pos.le
    _ = roundoff number := by rw [one_mul, unit]

/-- A representable number of steps is not rounded. -/
theorem rounded_of_representable {number : ℚ} {steps : Nat} (representable : Representable steps)
    (same : |number| * stepsInOne = steps) : rounded number = number := by
  have kept := roundStepsExact representable Nat.one_pos
  have ratio : ((steps * 1 : Nat) : ℚ) / (1 : Nat) = |number| * stepsInOne := by
    rw [same, Nat.mul_one, Nat.cast_one, div_one]
  rw [← roundSteps_eq_rounded Nat.one_pos ratio, kept, ← same, ← mul_assoc, sign_mul_abs,
    mul_div_cancel_right₀ _ stepsInOne_ne_zero]

/-- The whole numbers of fifty-three digits are representable, and so is the first of fifty-four. -/
theorem representable_of_le {magnitude shift : Nat} (bound : magnitude ≤ 2 ^ 53)
    (small : shift ≤ 2044) : Representable (magnitude * 2 ^ shift) := by
  rcases Nat.lt_or_eq_of_le bound with below | rfl
  · exact ⟨magnitude, shift, below, by omega, rfl⟩
  · refine ⟨2 ^ 52, shift + 1, by decide, by omega, ?_⟩
    rw [← Nat.pow_add, ← Nat.pow_add]
    congr 1
    omega

/-- Whole numbers up to `2 ^ 53` have few enough digits. -/
theorem representable_whole {magnitude : Nat} (bound : magnitude ≤ 2 ^ 53) :
    Representable (magnitude * stepsInOne) :=
  representable_of_le bound (by decide)

/-- Whole numbers up to `2 ^ 53` are not changed by rounding. -/
theorem rounded_whole (number : Int) (bound : number.natAbs ≤ 2 ^ 53) :
    rounded (number : ℚ) = number := by
  refine rounded_of_representable (representable_whole bound) ?_
  rw [Nat.cast_mul, Nat.cast_natAbs, Int.cast_abs]

theorem rounded_zero : rounded 0 = 0 := by
  exact_mod_cast rounded_whole 0 (by decide)

end FourCards.Binary64
