/-
This file bounds how far the value of an expression of cards is from its exact value, and says what is
computed where there is no exact one.
-/

import FourCards.Proofs.Binary64.Rational
import FourCards.Proofs.Exact.Value

namespace FourCards

open Binary64

namespace Operator

variable {operator : Operator} {left right : Binary64} {leftNumber rightNumber number : ℚ}

/-- An operation comes to its exact result, rounded. -/
theorem apply_standsFor (leftStands : left.StandsFor leftNumber)
    (rightStands : right.StandsFor rightNumber)
    (result : operator.rational? leftNumber rightNumber = some number) (bound : |number| ≤ 2 ^ 64) :
    (operator.apply left right).StandsFor (rounded number) := by
  cases operator with
  | add =>
      cases result
      exact leftStands.add rightStands bound
  | sub =>
      cases result
      exact leftStands.sub rightStands bound
  | mul =>
      cases result
      exact leftStands.mul rightStands bound
  | div =>
      obtain ⟨nonzero, rfl⟩ := rational?_div_eq_some_iff.mp result
      exact leftStands.div rightStands nonzero bound

/-- How far a result moves at most if the operands move by so much, where they are no larger than the
bounds and the right one is zero or no smaller than the inverse of the scale. -/
def spread (leftBound rightBound scale leftError rightError : ℚ) : ℚ :=
  leftError * (rightBound + rightError) + leftBound * rightError +
    (2 * scale * leftError + 2 * scale * scale * (leftBound * rightError))

/-- The inverse of a divisor that is not small is not large. -/
theorem abs_inv_le {scale divisor : ℚ} (nonzero : divisor ≠ 0) (bound : 1 ≤ scale * |divisor|) :
    |divisor⁻¹| ≤ scale := by
  rw [abs_inv, inv_le_iff_one_le_mul₀ (abs_pos.mpr nonzero)]
  exact bound

variable {leftActual rightActual leftBound rightBound scale leftError rightError : ℚ}

/-- How far a product is off is bounded by how far its factors are off. -/
theorem abs_mul_sub_mul_le (leftClose : |leftActual - leftNumber| ≤ leftError)
    (rightClose : |rightActual - rightNumber| ≤ rightError) (leftSmall : |leftNumber| ≤ leftBound)
    (rightSmall : |rightNumber| ≤ rightBound) :
    |leftActual * rightActual - leftNumber * rightNumber| ≤
      leftError * (rightBound + rightError) + leftBound * rightError := by
  have rightActualSmall : |rightActual| ≤ rightBound + rightError := by
    calc |rightActual| = |rightNumber + (rightActual - rightNumber)| := by
          rw [add_sub_cancel]
      _ ≤ |rightNumber| + |rightActual - rightNumber| := abs_add_le _ _
      _ ≤ rightBound + rightError := add_le_add rightSmall rightClose
  have leftNonnegative := (abs_nonneg _).trans leftClose
  have boundNonnegative := (abs_nonneg _).trans leftSmall
  calc |leftActual * rightActual - leftNumber * rightNumber|
      = |(leftActual - leftNumber) * rightActual + leftNumber * (rightActual - rightNumber)| := by
        congr 1
        ring
    _ ≤ |leftActual - leftNumber| * |rightActual| +
          |leftNumber| * |rightActual - rightNumber| := by
        rw [← abs_mul, ← abs_mul]
        exact abs_add_le _ _
    _ ≤ leftError * (rightBound + rightError) + leftBound * rightError := by
        gcongr

/-- A number near one that is not small is not small either. -/
theorem one_le_mul_abs_of_near (scaled : 1 ≤ scale * |rightNumber|)
    (rightClose : |rightActual - rightNumber| ≤ rightError) (positive : 0 ≤ scale)
    (small : 2 * scale * rightError ≤ 1) : 1 ≤ 2 * scale * |rightActual| := by
  have lower : |rightNumber| - rightError ≤ |rightActual| := by
    have apart := abs_sub_abs_le_abs_sub rightNumber rightActual
    rw [abs_sub_comm] at apart
    linarith
  have product := mul_le_mul_of_nonneg_left lower positive
  linarith

/-- How far a quotient is off is bounded by how far its parts are off, if the divisor is not small. -/
theorem abs_div_sub_div_le (nonzero : rightNumber ≠ 0) (actualNonzero : rightActual ≠ 0)
    (scaled : 1 ≤ scale * |rightNumber|) (actualScaled : 1 ≤ 2 * scale * |rightActual|)
    (leftClose : |leftActual - leftNumber| ≤ leftError)
    (rightClose : |rightActual - rightNumber| ≤ rightError) (leftSmall : |leftNumber| ≤ leftBound) :
    |leftActual / rightActual - leftNumber / rightNumber| ≤
      2 * scale * leftError + 2 * scale * scale * (leftBound * rightError) := by
  have inverse := abs_inv_le nonzero scaled
  have actualInverse := abs_inv_le actualNonzero actualScaled
  have leftNonnegative := (abs_nonneg _).trans leftClose
  have boundNonnegative := (abs_nonneg _).trans leftSmall
  have scaleNonnegative := (abs_nonneg _).trans inverse
  calc |leftActual / rightActual - leftNumber / rightNumber|
      = |rightActual⁻¹ * (leftActual - leftNumber) +
          rightActual⁻¹ * rightNumber⁻¹ * (leftNumber * -(rightActual - rightNumber))| := by
        congr 1
        field_simp
        ring
    _ ≤ |rightActual⁻¹| * |leftActual - leftNumber| +
          |rightActual⁻¹| * |rightNumber⁻¹| * (|leftNumber| * |rightActual - rightNumber|) := by
        rw [← abs_neg (rightActual - rightNumber), ← abs_mul, ← abs_mul, ← abs_mul, ← abs_mul]
        exact abs_add_le _ _
    _ ≤ 2 * scale * leftError + 2 * scale * scale * (leftBound * rightError) := by
        gcongr

/-- Operands that are near the exact ones have a result that is near the exact one. -/
theorem rational?_near (result : operator.rational? leftNumber rightNumber = some number)
    (leftClose : |leftActual - leftNumber| ≤ leftError)
    (rightClose : |rightActual - rightNumber| ≤ rightError)
    (leftSmall : |leftNumber| ≤ leftBound) (rightSmall : |rightNumber| ≤ rightBound)
    (leftOne : 1 ≤ leftBound) (rightOne : 1 ≤ rightBound) (positive : 0 ≤ scale)
    (scaled : rightNumber ≠ 0 → 1 ≤ scale * |rightNumber|) (small : 2 * scale * rightError ≤ 1) :
    ∃ actual, operator.rational? leftActual rightActual = some actual ∧
      |actual - number| ≤ spread leftBound rightBound scale leftError rightError := by
  have leftNonnegative := (abs_nonneg _).trans leftClose
  have rightNonnegative := (abs_nonneg _).trans rightClose
  have product : 0 ≤ leftError * (rightBound + rightError) + leftBound * rightError := by positivity
  have quotient : 0 ≤ 2 * scale * leftError + 2 * scale * scale * (leftBound * rightError) := by
    positivity
  have sum : leftError + rightError ≤
      leftError * (rightBound + rightError) + leftBound * rightError := by
    nlinarith
  rw [spread]
  cases operator with
  | add =>
      cases result
      refine ⟨_, rfl, ?_⟩
      rw [add_sub_add_comm]
      linarith [abs_add_le (leftActual - leftNumber) (rightActual - rightNumber)]
  | sub =>
      cases result
      refine ⟨_, rfl, ?_⟩
      rw [sub_sub_sub_comm]
      linarith [abs_sub (leftActual - leftNumber) (rightActual - rightNumber)]
  | mul =>
      cases result
      refine ⟨_, rfl, ?_⟩
      linarith [abs_mul_sub_mul_le leftClose rightClose leftSmall rightSmall]
  | div =>
      obtain ⟨nonzero, rfl⟩ := rational?_div_eq_some_iff.mp result
      have actualScaled := one_le_mul_abs_of_near (scaled nonzero) rightClose positive small
      have actualNonzero : rightActual ≠ 0 := by
        rintro rfl
        simp at actualScaled
        linarith
      refine ⟨_, if_neg actualNonzero, ?_⟩
      linarith [abs_div_sub_div_le nonzero actualNonzero (scaled nonzero) actualScaled leftClose
        rightClose leftSmall]

end Operator

namespace Binary64

/-- The value is finite and no further from the number than the error. -/
def Near (value : Binary64) (number error : ℚ) : Prop :=
  ∃ actual, value.StandsFor actual ∧ |actual - number| ≤ error

/-- What stands for a number is not off at all. -/
theorem StandsFor.near {value : Binary64} {number : ℚ} (stands : value.StandsFor number) :
    value.Near number 0 :=
  ⟨number, stands, by rw [sub_self, abs_zero]⟩

/-- The steps in one are a large power of two. -/
theorem two_pow_le_stepsInOne (digits : Nat) (bound : digits ≤ 1074) :
    2 ^ digits ≤ stepsInOne := by
  rwa [stepsInOne, Nat.pow_le_pow_iff_right Nat.one_lt_two]

/-- One rounding is off by a part of the number in `2 ^ 53`, and by a tiny amount near zero. -/
theorem roundoff_le (number : ℚ) : roundoff number ≤ |number| / 2 ^ 53 + 1 / 2 ^ 100 := by
  have many : (2 ^ 100 : ℚ) ≤ stepsInOne := by
    exact_mod_cast two_pow_le_stepsInOne 100 (by decide)
  rw [roundoff]
  gcongr
  linarith

end Binary64

namespace Expression

/-- How far the value of so many cards is from the exact one at most. -/
def errorBound : Nat → ℚ
  | 0 | 1 => 0
  | 2 => 1 / 2 ^ 45
  | 3 => 1 / 2 ^ 32
  | _ => 1 / 2 ^ 12

/-- No value of so many cards is larger. -/
def valueBound (size : Nat) : Nat :=
  13 * 13 ^ (size - 1)

theorem one_le_valueBound (size : Nat) : (1 : ℚ) ≤ valueBound size :=
  Nat.one_le_cast.mpr (Nat.mul_pos (by decide) (Nat.pow_pos (by decide)))

/-- How far a result moves with the errors of operands of so many cards. -/
def spread (leftSize rightSize : Nat) : ℚ :=
  Operator.spread (valueBound leftSize) (valueBound rightSize) (13 ^ (rightSize - 1) : Nat)
    (errorBound leftSize) (errorBound rightSize)

/-- The errors of the operands and of the rounding stay below the error of the result. -/
theorem spread_add_roundoff_le {leftSize rightSize : Nat} (leftPositive : 0 < leftSize)
    (rightPositive : 0 < rightSize) (few : leftSize + rightSize ≤ 4) :
    spread leftSize rightSize + ((valueBound (leftSize + rightSize) + spread leftSize rightSize) /
      2 ^ 53 + 1 / 2 ^ 100) ≤ errorBound (leftSize + rightSize) := by
  have leftFew : leftSize ≤ 3 := by omega
  have rightFew : rightSize ≤ 3 := by omega
  interval_cases leftSize <;> interval_cases rightSize <;>
    first
    | omega
    | norm_num [spread, Operator.spread, valueBound, errorBound]

/-- What four cards make is far from overflowing, however far it is off. -/
theorem valueBound_add_spread_le {leftSize rightSize : Nat} (leftPositive : 0 < leftSize)
    (rightPositive : 0 < rightSize) (few : leftSize + rightSize ≤ 4) :
    (valueBound (leftSize + rightSize) + spread leftSize rightSize : ℚ) ≤ 2 ^ 64 := by
  have leftFew : leftSize ≤ 3 := by omega
  have rightFew : rightSize ≤ 3 := by omega
  interval_cases leftSize <;> interval_cases rightSize <;>
    first
    | omega
    | norm_num [spread, Operator.spread, valueBound, errorBound]

/-- What three cards make is off by less than half of what keeps it from zero. -/
theorem two_mul_errorBound_le {size : Nat} (positive : 0 < size) (few : size ≤ 3) :
    2 * ((13 ^ (size - 1) : Nat) : ℚ) * errorBound size ≤ 1 := by
  interval_cases size <;> norm_num [errorBound]

variable {expression left right : Expression} {operator : Operator} {value : ℚ}

/-- What some cards make is bounded by their number. -/
theorem OfCards.abs_le (cards : expression.OfCards) (result : expression.rational? = some value) :
    |value| ≤ valueBound expression.size :=
  (cards.isRatio result).abs_le

/-- A card is computed as it is. -/
theorem OfCards.standsFor_of_size_eq_one (cards : expression.OfCards)
    (single : expression.size = 1) (result : expression.rational? = some value) :
    expression.value.StandsFor value := by
  obtain ⟨number, -, upper, computed, exact⟩ := cards.rational?_of_size_eq_one single
  rw [exact] at result
  cases result
  rw [computed]
  exact ofNat_standsFor (by omega)

/-- Where the exact values of the operands have a result, so have the computed ones, and it is near. -/
theorem OfCards.exists_actual {leftValue rightValue : ℚ}
    (cards : (apply operator left right).OfCards) (few : left.size + right.size ≤ 4)
    (leftExact : left.rational? = some leftValue) (rightExact : right.rational? = some rightValue)
    (result : operator.rational? leftValue rightValue = some value)
    (leftNear : left.value.Near leftValue (errorBound left.size))
    (rightNear : right.value.Near rightValue (errorBound right.size)) :
    ∃ leftActual rightActual actual, left.value.StandsFor leftActual ∧
      right.value.StandsFor rightActual ∧ operator.rational? leftActual rightActual = some actual ∧
        |actual - value| ≤ spread left.size right.size := by
  obtain ⟨leftActual, leftStands, leftClose⟩ := leftNear
  obtain ⟨rightActual, rightStands, rightClose⟩ := rightNear
  have leftPositive := left.size_pos
  obtain ⟨actual, computed, close⟩ := Operator.rational?_near result leftClose rightClose
    (cards.of_left.abs_le leftExact) (cards.of_right.abs_le rightExact) (one_le_valueBound _)
    (one_le_valueBound _) (Nat.cast_nonneg _) (cards.of_right.isRatio rightExact).one_le_mul_abs
    (two_mul_errorBound_le right.size_pos (by omega))
  exact ⟨leftActual, rightActual, actual, leftStands, rightStands, computed, close⟩

/-- Up to four cards are computed nearly, as long as nothing is divided by zero. -/
theorem OfCards.near (cards : expression.OfCards) (few : expression.size ≤ 4)
    (result : expression.rational? = some value) :
    expression.value.Near value (errorBound expression.size) := by
  induction expression generalizing value with
  | literal numeral => exact (cards.standsFor_of_size_eq_one rfl result).near
  | apply operator left right leftHypothesis rightHypothesis =>
      have bound := cards.abs_le result
      obtain ⟨leftValue, rightValue, leftExact, rightExact, result⟩ :=
        rational?_apply_eq_some_iff.mp result
      rw [size_apply] at few bound ⊢
      obtain ⟨leftActual, rightActual, actual, leftStands, rightStands, computed, close⟩ :=
        cards.exists_actual few leftExact rightExact result
          (leftHypothesis cards.of_left (by omega) leftExact)
          (rightHypothesis cards.of_right (by omega) rightExact)
      -- The computed result is off by what the operands are off by, carried through the operation, and
      -- by one rounding.
      have total := spread_add_roundoff_le left.size_pos right.size_pos few
      have magnitude : |actual| ≤
          valueBound (left.size + right.size) + spread left.size right.size := by
        calc |actual| = |value + (actual - value)| := by rw [add_sub_cancel]
          _ ≤ |value| + |actual - value| := abs_add_le _ _
          _ ≤ _ := add_le_add bound close
      refine ⟨rounded actual, Operator.apply_standsFor leftStands rightStands computed ?_, ?_⟩
      · exact magnitude.trans (valueBound_add_spread_le left.size_pos right.size_pos few)
      · calc |rounded actual - value|
            = |(rounded actual - actual) + (actual - value)| := by rw [sub_add_sub_cancel]
          _ ≤ |rounded actual - actual| + |actual - value| := abs_add_le _ _
          _ ≤ (|actual| / 2 ^ 53 + 1 / 2 ^ 100) + spread left.size right.size :=
              add_le_add ((abs_rounded_sub_le actual).trans (roundoff_le actual)) close
          _ ≤ errorBound (left.size + right.size) := by linarith

end Expression

end FourCards
