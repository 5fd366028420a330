/-
This file rounds a ratio of whole numbers to the nearest binary floating-point number.
-/

import FourCards.Binary64.Basic

namespace FourCards.Binary64

/-- The whole number nearest to a ratio; of two equally near the even one. -/
def nearestEven (numerator denominator : Nat) : Nat :=
  let quotient := numerator / denominator
  let remainder := numerator % denominator
  if 2 * remainder < denominator then quotient
  else if denominator < 2 * remainder then quotient + 1
  else quotient + quotient % 2

theorem nearestEvenLower (numerator denominator : Nat) :
    numerator / denominator ≤ nearestEven numerator denominator := by
  simp only [nearestEven]
  split
  · exact Nat.le_refl _
  · split <;> omega

theorem nearestEvenUpper (numerator denominator : Nat) :
    nearestEven numerator denominator ≤ numerator / denominator + 1 := by
  simp only [nearestEven]
  split
  · omega
  · split <;> omega

theorem nearestEvenMultiple (quotient denominator : Nat) (positive : 0 < denominator) :
    nearestEven (quotient * denominator) denominator = quotient := by
  simp [nearestEven, Nat.mul_mod_left, Nat.mul_div_cancel _ positive, positive]

/-- The binary digits that a magnitude has beyond its leading fifty-three. -/
def surplusDigits (magnitude : Nat) : Nat :=
  magnitude.log2 - 52

/-- The steps nearest to a ratio of steps among those of at most fifty-three digits. -/
def roundSteps (numerator denominator : Nat) : Nat :=
  let shift := surplusDigits (numerator / denominator)
  nearestEven numerator (denominator * 2 ^ shift) * 2 ^ shift

/-- The first magnitude, in steps, that rounds to an infinity. -/
def overflowSteps : Nat := 2 ^ 2098

theorem divSurplusUpper (magnitude : Nat) : magnitude / 2 ^ surplusDigits magnitude < 2 ^ 53 := by
  rw [Nat.div_lt_iff_lt_mul (Nat.two_pow_pos _), ← Nat.pow_add]
  refine Nat.lt_of_lt_of_le Nat.lt_log2_self (Nat.pow_le_pow_right (by decide) ?_)
  simp only [surplusDigits]
  omega

theorem divSurplusLower (magnitude : Nat) (surplus : 0 < surplusDigits magnitude) :
    2 ^ 52 ≤ magnitude / 2 ^ surplusDigits magnitude := by
  rw [Nat.le_div_iff_mul_le (Nat.two_pow_pos _), ← Nat.pow_add]
  simp only [surplusDigits] at surplus ⊢
  have nonzero : magnitude ≠ 0 := by
    rintro rfl
    simp at surplus
  refine Nat.le_trans (Nat.pow_le_pow_right (by decide) ?_) (Nat.log2_self_le nonzero)
  omega

theorem surplusDigitsLe {significand shift : Nat} (small : significand < 2 ^ 53) :
    surplusDigits (significand * 2 ^ shift) ≤ shift := by
  by_cases zero : significand * 2 ^ shift = 0
  · simp [surplusDigits, zero]
  · have upper : significand * 2 ^ shift < 2 ^ (53 + shift) := by
      rw [Nat.pow_add]
      exact Nat.mul_lt_mul_of_pos_right small (Nat.two_pow_pos shift)
    have := (Nat.log2_lt zero).mpr upper
    simp only [surplusDigits]
    omega

/-- No digit of a representable magnitude is lost with its surplus ones. -/
theorem divMulSurplus {steps : Nat} (representable : Representable steps) :
    steps / 2 ^ surplusDigits steps * 2 ^ surplusDigits steps = steps := by
  obtain ⟨significand, shift, small, -, rfl⟩ := representable
  exact Nat.div_mul_cancel (Nat.dvd_trans (Nat.pow_dvd_pow 2 (surplusDigitsLe small))
    (Nat.dvd_mul_left _ _))

theorem surplusDigitsBound {steps : Nat} (representable : Representable steps) :
    surplusDigits steps ≤ 2045 := by
  obtain ⟨significand, shift, small, bound, rfl⟩ := representable
  exact Nat.le_trans (surplusDigitsLe small) bound

/-- Rounding changes nothing that is representable. -/
theorem roundStepsExact {steps denominator : Nat} (representable : Representable steps)
    (positive : 0 < denominator) : roundSteps (steps * denominator) denominator = steps := by
  have restored := divMulSurplus representable
  have regrouped : steps * denominator = steps / 2 ^ surplusDigits steps *
      (denominator * 2 ^ surplusDigits steps) := by
    rw [Nat.mul_comm denominator, ← Nat.mul_assoc, restored]
  simp only [roundSteps, Nat.mul_div_cancel _ positive]
  rw [regrouped, nearestEvenMultiple _ _ (Nat.mul_pos positive (Nat.two_pow_pos _)), restored]

theorem roundStepsRepresentable {numerator denominator : Nat}
    (inRange : roundSteps numerator denominator < overflowSteps) :
    Representable (roundSteps numerator denominator) := by
  simp only [roundSteps, overflowSteps] at inRange ⊢
  have upper := divSurplusUpper (numerator / denominator)
  have lower := divSurplusLower (numerator / denominator)
  generalize surplusDigits (numerator / denominator) = shift at inRange upper lower ⊢
  have nearestLower := nearestEvenLower numerator (denominator * 2 ^ shift)
  have nearestUpper := nearestEvenUpper numerator (denominator * 2 ^ shift)
  rw [← Nat.div_div_eq_div_mul] at nearestLower nearestUpper
  generalize nearestEven numerator (denominator * 2 ^ shift) = nearest
    at inRange nearestLower nearestUpper ⊢
  have shiftBound (digits : Nat) (large : 2 ^ digits ≤ nearest) : digits + shift < 2098 := by
    rw [← Nat.pow_lt_pow_iff_right (a := 2) (by decide), Nat.pow_add]
    exact Nat.lt_of_le_of_lt (Nat.mul_le_mul_right _ large) inRange
  rcases Nat.lt_or_ge nearest (2 ^ 53) with small | large
  · rcases Nat.eq_zero_or_pos shift with rfl | positive
    · exact ⟨nearest, 0, small, by decide, rfl⟩
    · have := shiftBound 52 (Nat.le_trans (lower positive) nearestLower)
      exact ⟨nearest, shift, small, by omega, rfl⟩
  · have := shiftBound 53 large
    refine ⟨2 ^ 52, shift + 1, by decide, by omega, ?_⟩
    have : nearest = 2 ^ 53 := by omega
    rw [this, ← Nat.pow_add, ← Nat.pow_add]
    congr 1
    omega

/-- The number nearest to a signed ratio of steps, ties to the even significand. -/
def round (negative : Bool) (numerator denominator : Nat) : Binary64 :=
  if inRange : roundSteps numerator denominator < overflowSteps then
    finite negative (roundSteps numerator denominator) (roundStepsRepresentable inRange)
  else
    infinity negative

end FourCards.Binary64
