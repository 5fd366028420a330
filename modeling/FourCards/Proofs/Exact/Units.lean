/-
This file computes with numbers that are neither large nor small in whole units, and proves that the
operations on binary floating-point numbers come to the same.
-/

import FourCards.Proofs.Exact.Rounding

namespace FourCards

namespace Binary64

/-- The units of `2 ^ -64` in one. -/
def unitsInOne : Nat := 2 ^ 64

/-- A nonnegative number that is a whole number of units. -/
def Counts (value : Binary64) (units : Nat) : Prop :=
  value.StandsFor (units / unitsInOne)

/-- Rounds a ratio of units, unless finer units might be needed or it might overflow. -/
def roundUnits? (numerator denominator : Nat) : Option Nat :=
  let quotient := numerator / denominator
  if 2 ^ 52 ≤ quotient ∧ quotient < 2 ^ 127 then some (roundSteps numerator denominator) else none

/-- A ratio that is counted more finely has as many binary digits more. -/
theorem log2_mul_two_pow_div {numerator denominator : Nat} (digits : Nat)
    (large : 0 < numerator / denominator) :
    (numerator * 2 ^ digits / denominator).log2 = (numerator / denominator).log2 + digits := by
  have positive : 0 < denominator := by
    by_contra none
    rw [Nat.eq_zero_of_not_pos none, Nat.div_zero] at large
    exact Nat.lt_irrefl 0 large
  have lower := Nat.log2_self_le large.ne'
  have upper := Nat.lt_log2_self (n := numerator / denominator)
  generalize (numerator / denominator).log2 = length at lower upper ⊢
  rw [Nat.le_div_iff_mul_le positive] at lower
  rw [Nat.div_lt_iff_lt_mul positive] at upper
  have scaledLower : 2 ^ (length + digits) ≤ numerator * 2 ^ digits / denominator := by
    rw [Nat.le_div_iff_mul_le positive, Nat.pow_add, Nat.mul_right_comm]
    exact Nat.mul_le_mul_right _ lower
  have scaledUpper : numerator * 2 ^ digits / denominator < 2 ^ (length + digits + 1) := by
    rw [Nat.div_lt_iff_lt_mul positive, Nat.add_right_comm, Nat.pow_add, Nat.mul_right_comm]
    exact Nat.mul_lt_mul_of_pos_right upper (Nat.two_pow_pos digits)
  have nonzero := (Nat.lt_of_lt_of_le (Nat.two_pow_pos _) scaledLower).ne'
  exact (Nat.log2_eq_iff nonzero).mpr ⟨scaledLower, scaledUpper⟩

/-- With fifty-three digits to the left of the point, rounding is the same in finer units. -/
theorem roundSteps_mul_two_pow {numerator denominator : Nat} (digits : Nat)
    (large : 2 ^ 52 ≤ numerator / denominator) :
    roundSteps (numerator * 2 ^ digits) denominator =
      roundSteps numerator denominator * 2 ^ digits := by
  have positive : 0 < numerator / denominator := Nat.lt_of_lt_of_le (by decide) large
  have length : 52 ≤ (numerator / denominator).log2 := (Nat.le_log2 positive.ne').mpr large
  have surplus : surplusDigits (numerator * 2 ^ digits / denominator) =
      surplusDigits (numerator / denominator) + digits := by
    rw [surplusDigits, surplusDigits, log2_mul_two_pow_div digits positive]
    omega
  rw [roundSteps, surplus, Nat.pow_add, ← Nat.mul_assoc, ← Nat.mul_assoc,
    nearestEven_mul_right _ _ (Nat.two_pow_pos digits), roundSteps]

theorem unitsInOne_pos : (0 : ℚ) < unitsInOne :=
  Nat.cast_pos.mpr (by decide)

/-- A unit is a whole number of steps, a power of two. -/
theorem exists_unitsInOne_mul : ∃ digits, stepsInOne = unitsInOne * 2 ^ digits := by
  obtain ⟨digits, split⟩ : ∃ digits, 1074 = 64 + digits := ⟨1010, rfl⟩
  exact ⟨digits, by rw [stepsInOne, split, Nat.pow_add, unitsInOne]⟩

/-- Only ratios above zero are rounded to units. -/
theorem pos_of_roundUnits? {numerator denominator units : Nat}
    (computed : roundUnits? numerator denominator = some units) :
    0 < numerator ∧ 0 < denominator := by
  simp only [roundUnits?] at computed
  split at computed
  · rename_i range
    have quotient := Nat.lt_of_lt_of_le (Nat.two_pow_pos 52) range.1
    refine ⟨Nat.pos_of_div_pos quotient, Nat.pos_of_ne_zero ?_⟩
    rintro rfl
    rw [Nat.div_zero] at quotient
    exact Nat.lt_irrefl 0 quotient
  · cases computed

/-- What is rounded in units is rounded to the nearest number. -/
theorem rounded_of_roundUnits? {numerator denominator units : Nat}
    (computed : roundUnits? numerator denominator = some units) :
    rounded (numerator / denominator / unitsInOne) = units / unitsInOne ∧
      |(numerator / denominator / unitsInOne : ℚ)| ≤ 2 ^ 64 := by
  obtain ⟨nonzero, positive⟩ := pos_of_roundUnits? computed
  simp only [roundUnits?] at computed
  split at computed
  · rename_i range
    obtain ⟨lower, upper⟩ := range
    cases computed
    rw [Nat.div_lt_iff_lt_mul positive] at upper
    have positiveCast : (0 : ℚ) < denominator := Nat.cast_pos.mpr positive
    have nonzeroCast : (0 : ℚ) < numerator := Nat.cast_pos.mpr nonzero
    have above : (0 : ℚ) < numerator / denominator / unitsInOne :=
      div_pos (div_pos nonzeroCast positiveCast) unitsInOne_pos
    obtain ⟨digits, finer⟩ := exists_unitsInOne_mul
    have scale : (stepsInOne : ℚ) = unitsInOne * 2 ^ digits := by
      rw [finer]
      push_cast
      rfl
    have same : ((numerator * 2 ^ digits : Nat) : ℚ) / denominator =
        |(numerator / denominator / unitsInOne : ℚ)| * stepsInOne := by
      rw [abs_of_pos above, scale, ← mul_assoc, div_mul_cancel₀ _ unitsInOne_pos.ne']
      push_cast
      rw [mul_div_right_comm]
    constructor
    · rw [← roundSteps_eq_rounded positive same, sign_pos above,
        roundSteps_mul_two_pow digits lower, scale]
      push_cast
      rw [SignType.coe_one, one_mul, mul_div_mul_right _ _ (by positivity)]
    · have upperCast : (numerator : ℚ) < 2 ^ 127 * denominator := by exact_mod_cast upper
      have ratio : (numerator : ℚ) / denominator < 2 ^ 127 := (div_lt_iff₀ positiveCast).mpr upperCast
      have units : (unitsInOne : ℚ) = 2 ^ 64 := by
        rw [unitsInOne]
        norm_num
      rw [abs_of_pos above, div_le_iff₀ unitsInOne_pos, units]
      linarith
  · cases computed

end Binary64

namespace Operator

open Binary64

/-- The operation on whole units; a difference has to be positive. -/
def units? : Operator → Nat → Nat → Option Nat
  | add, left, right => roundUnits? (left + right) 1
  | sub, left, right => roundUnits? (left - right) 1
  | mul, left, right => roundUnits? (left * right) unitsInOne
  | div, left, right => roundUnits? (left * unitsInOne) right

variable {operator : Operator} {left right : Binary64} {leftUnits rightUnits units : Nat}

/-- The exact result of an operation on units. -/
theorem rational?_units (computed : operator.units? leftUnits rightUnits = some units) :
    ∃ exact, operator.rational? (leftUnits / unitsInOne) (rightUnits / unitsInOne) = some exact ∧
      rounded exact = units / unitsInOne ∧ |exact| ≤ 2 ^ 64 := by
  cases operator with
  | add =>
      refine ⟨_, rfl, ?_⟩
      simpa only [Nat.cast_add, Nat.cast_one, div_one, add_div] using rounded_of_roundUnits? computed
  | sub =>
      have above := (pos_of_roundUnits? computed).1
      refine ⟨_, rfl, ?_⟩
      simpa only [Nat.cast_sub (Nat.le_of_lt (Nat.lt_of_sub_pos above)), Nat.cast_one, div_one,
        sub_div] using rounded_of_roundUnits? computed
  | mul =>
      refine ⟨_, rfl, ?_⟩
      rw [div_mul_div_comm, ← Nat.cast_mul leftUnits, ← div_div]
      exact rounded_of_roundUnits? computed
  | div =>
      have nonzero : (rightUnits : ℚ) ≠ 0 := by
        exact_mod_cast (pos_of_roundUnits? computed).2.ne'
      refine ⟨leftUnits / unitsInOne / (rightUnits / unitsInOne),
        if_neg (div_ne_zero nonzero unitsInOne_pos.ne'), ?_⟩
      rw [div_div_div_cancel_right₀ unitsInOne_pos.ne']
      have nearest := rounded_of_roundUnits? computed
      rwa [Nat.cast_mul, mul_div_right_comm, mul_div_cancel_right₀ _ unitsInOne_pos.ne'] at nearest

/-- An operation on numbers of units comes to the number of units that is computed from these. -/
theorem apply_counts (leftCounts : left.Counts leftUnits) (rightCounts : right.Counts rightUnits)
    (computed : operator.units? leftUnits rightUnits = some units) :
    (operator.apply left right).Counts units := by
  obtain ⟨exact, result, nearest, bound⟩ := rational?_units computed
  rw [Counts, ← nearest]
  exact apply_standsFor leftCounts rightCounts result bound

end Operator

namespace Binary64

variable {value : Binary64} {number : Nat}

/-- A number stands for another if it counts the units of that one. -/
theorem counts_mul_unitsInOne : value.Counts (number * unitsInOne) ↔ value.StandsFor number := by
  rw [Counts, Nat.cast_mul, mul_div_cancel_right₀ _ unitsInOne_pos.ne']

end Binary64

namespace Operator

open Binary64

/-- The quotient of whole numbers in units. -/
def quotientUnits? (above below : Nat) : Option Nat :=
  div.units? (above * unitsInOne) (below * unitsInOne)

/-- A rounded quotient is the one that is computed in units. -/
theorem counts_of_quotientUnits? {value : Binary64} {above below units : Nat}
    (stands : value.StandsFor (rounded (above / below)))
    (computed : quotientUnits? above below = some units) : value.Counts units := by
  obtain ⟨exact, result, nearest, -⟩ := rational?_units computed
  rw [Nat.cast_mul, Nat.cast_mul, mul_div_cancel_right₀ _ unitsInOne_pos.ne',
    mul_div_cancel_right₀ _ unitsInOne_pos.ne', rational?] at result
  split at result
  · cases result
  · cases result
    rwa [nearest] at stands

end Operator

end FourCards
