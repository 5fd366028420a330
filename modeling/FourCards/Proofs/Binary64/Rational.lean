/-
This file says which rational numbers the finite numbers stand for, and proves that every operation
comes to the exact result rounded once, and that comparisons compare what the numbers stand for.
-/

import FourCards.Proofs.Binary64.Comparison
import FourCards.Proofs.Binary64.Rounding

namespace FourCards.Binary64

/-- The number of ones that a finite number stands for. -/
def rational : Binary64 → ℚ
  | finite negative steps _ => signed negative steps / stepsInOne
  | _ => 0

/-- The number is finite, and both zeros stand for zero. -/
def StandsFor (value : Binary64) (number : ℚ) : Prop :=
  value.isFinite = true ∧ value.rational = number

/-- What stands for a rational number is a signed count of steps. -/
theorem StandsFor.exists_finite {value : Binary64} {number : ℚ} (stands : value.StandsFor number) :
    ∃ negative steps representable, value = finite negative steps representable ∧
      (signed negative steps : ℚ) / stepsInOne = number := by
  obtain ⟨isFinite, same⟩ := stands
  cases value with
  | nan => cases isFinite
  | infinity => cases isFinite
  | finite negative steps representable => exact ⟨negative, steps, representable, rfl, same⟩

/-- A signed count of steps stands for its share of one. -/
theorem StandsFor.finite (negative : Bool) (steps : Nat) (representable : Representable steps) :
    (finite negative steps representable).StandsFor (signed negative steps / stepsInOne) :=
  ⟨rfl, rfl⟩

theorem abs_signed (negative : Bool) (magnitude : Nat) :
    |(signed negative magnitude : ℚ)| = magnitude := by
  cases negative <;> simp [signed]

/-- The magnitude of a number is counted by its steps. -/
theorem abs_signed_div (negative : Bool) (steps : Nat) :
    |(signed negative steps : ℚ) / stepsInOne| = steps / stepsInOne := by
  rw [abs_div, abs_signed, abs_of_pos stepsInOne_pos]

theorem signed_zero (negative : Bool) : signed negative 0 = 0 := by
  cases negative <;> rfl

theorem signed_eq_zero {negative : Bool} {magnitude : Nat} :
    signed negative magnitude = 0 ↔ magnitude = 0 := by
  cases negative <;> simp [signed]

/-- Powers of two up to the largest exponent do not overflow. -/
theorem two_pow_mul_stepsInOne_le {digits : Nat} (bound : digits ≤ 1024) :
    2 ^ digits * stepsInOne ≤ overflowSteps := by
  rw [stepsInOne, overflowSteps, ← Nat.pow_add, Nat.pow_le_pow_iff_right Nat.one_lt_two]
  omega

/-- No ratio of a moderate magnitude overflows. -/
theorem roundSteps_lt_overflowSteps {numerator denominator : Nat} {magnitude : ℚ}
    (positive : 0 < denominator) (bound : magnitude ≤ 2 ^ 64)
    (same : (numerator / denominator : ℚ) = magnitude * stepsInOne) :
    roundSteps numerator denominator < overflowSteps := by
  have close := (abs_le.mp (abs_roundSteps_sub_le numerator positive)).2
  rw [same] at close
  have one : (1 : ℚ) ≤ stepsInOne := Nat.one_le_cast.mpr (Nat.cast_pos.mp stepsInOne_pos)
  have scaled : magnitude * stepsInOne ≤ 2 ^ 64 * stepsInOne :=
    mul_le_mul_of_nonneg_right bound stepsInOne_pos.le
  have below : (roundSteps numerator denominator : ℚ) < (2 ^ 66 * stepsInOne : Nat) := by
    push_cast
    linarith
  exact Nat.lt_of_lt_of_le (Nat.cast_lt.mp below) (two_pow_mul_stepsInOne_le (by decide))

/-- Rounding the magnitude and giving it the sign rounds the number. -/
theorem signed_roundSteps {negative : Bool} {numerator denominator : Nat} {number : ℚ}
    (positive : 0 < denominator)
    (same : (numerator / denominator : ℚ) = |number| * stepsInOne)
    (sign : if negative then number ≤ 0 else 0 ≤ number) :
    (signed negative (roundSteps numerator denominator) : ℚ) / stepsInOne = rounded number := by
  rw [← roundSteps_eq_rounded positive same]
  congr 1
  rcases lt_trichotomy number 0 with below | rfl | above
  · cases negative with
    | false => exact absurd below (not_lt.mpr sign)
    | true => simp [signed, sign_neg below]
  · have none : numerator = 0 := by
      rw [abs_zero, zero_mul, div_eq_zero_iff] at same
      have nonzero : (denominator : ℚ) ≠ 0 := by exact_mod_cast positive.ne'
      exact_mod_cast same.resolve_right nonzero
    have exact := roundStepsExact representableZero positive
    rw [Nat.zero_mul] at exact
    rw [none, exact, signed_zero]
    simp
  · cases negative with
    | true => exact absurd above (not_lt.mpr sign)
    | false => simp [signed, sign_pos above]

/-- Rounding a ratio with a sign gives the number that stands for the rounded ratio. -/
theorem round_standsFor {negative : Bool} {numerator denominator : Nat} {number : ℚ}
    (positive : 0 < denominator) (bound : |number| ≤ 2 ^ 64)
    (same : (numerator / denominator : ℚ) = |number| * stepsInOne)
    (sign : if negative then number ≤ 0 else 0 ≤ number) :
    (round negative numerator denominator).StandsFor (rounded number) := by
  rw [round, dif_pos (roundSteps_lt_overflowSteps positive bound same),
    ← signed_roundSteps positive same sign]
  exact .finite ..

namespace StandsFor

variable {left right : Binary64} {leftNumber rightNumber : ℚ}

/-- Negation is exact. -/
theorem negate (leftStands : left.StandsFor leftNumber) :
    left.negate.StandsFor (-leftNumber) := by
  obtain ⟨negative, steps, representable, rfl, rfl⟩ := leftStands.exists_finite
  refine ⟨rfl, ?_⟩
  rw [Binary64.negate, rational, signed_not, Int.cast_neg, neg_div]

/-- The magnitude is taken exactly. -/
theorem abs (leftStands : left.StandsFor leftNumber) : left.abs.StandsFor |leftNumber| := by
  obtain ⟨negative, steps, representable, rfl, rfl⟩ := leftStands.exists_finite
  rw [abs_signed_div]
  exact ⟨rfl, rfl⟩

/-- Finite numbers are equal if they stand for the same number. -/
theorem equals_iff (leftStands : left.StandsFor leftNumber)
    (rightStands : right.StandsFor rightNumber) :
    left.equals right = true ↔ leftNumber = rightNumber := by
  obtain ⟨leftSign, leftSteps, leftProof, rfl, rfl⟩ := leftStands.exists_finite
  obtain ⟨rightSign, rightSteps, rightProof, rfl, rfl⟩ := rightStands.exists_finite
  rw [equals, beq_iff_eq, div_left_inj' stepsInOne_ne_zero, Int.cast_inj]

/-- Finite numbers are in the order of what they stand for. -/
theorem less_iff (leftStands : left.StandsFor leftNumber)
    (rightStands : right.StandsFor rightNumber) :
    left.less right = true ↔ leftNumber < rightNumber := by
  obtain ⟨leftSign, leftSteps, leftProof, rfl, rfl⟩ := leftStands.exists_finite
  obtain ⟨rightSign, rightSteps, rightProof, rfl, rfl⟩ := rightStands.exists_finite
  rw [less, decide_eq_true_iff, div_lt_div_iff_of_pos_right stepsInOne_pos, Int.cast_lt]

/-- A sum of moderate size is rounded once. -/
theorem add (leftStands : left.StandsFor leftNumber) (rightStands : right.StandsFor rightNumber)
    (bound : |leftNumber + rightNumber| ≤ 2 ^ 64) :
    (left.add right).StandsFor (rounded (leftNumber + rightNumber)) := by
  obtain ⟨leftSign, leftSteps, leftProof, rfl, rfl⟩ := leftStands.exists_finite
  obtain ⟨rightSign, rightSteps, rightProof, rfl, rfl⟩ := rightStands.exists_finite
  rw [← add_div, ← Int.cast_add] at bound ⊢
  rw [Binary64.add]
  generalize signed leftSign leftSteps + signed rightSign rightSteps = total at bound ⊢
  refine round_standsFor Nat.one_pos bound ?_ ?_
  · rw [Nat.cast_one, div_one, abs_div, abs_of_pos stepsInOne_pos,
      div_mul_cancel₀ _ stepsInOne_ne_zero, Nat.cast_natAbs, Int.cast_abs]
  · rcases lt_trichotomy total 0 with below | rfl | above
    · simp only [below.ne, below, if_false, decide_true, if_true]
      exact div_nonpos_of_nonpos_of_nonneg (Int.cast_nonpos.mpr below.le) stepsInOne_pos.le
    · rw [Int.cast_zero, zero_div, ite_self]
    · simp only [above.ne', not_lt.mpr above.le, if_false, decide_false, Bool.false_eq_true]
      exact div_nonneg (Int.cast_nonneg above.le) stepsInOne_pos.le

/-- A difference of moderate size is rounded once. -/
theorem sub (leftStands : left.StandsFor leftNumber) (rightStands : right.StandsFor rightNumber)
    (bound : |leftNumber - rightNumber| ≤ 2 ^ 64) :
    (left.sub right).StandsFor (rounded (leftNumber - rightNumber)) := by
  rw [sub_eq_add_neg] at bound ⊢
  exact leftStands.add rightStands.negate bound

/-- Signs multiply, of numbers as of their inverses. -/
theorem sign_xor {leftSign rightSign : Bool} {leftMagnitude rightMagnitude : ℚ}
    (leftBound : if leftSign then leftMagnitude ≤ 0 else 0 ≤ leftMagnitude)
    (rightBound : if rightSign then rightMagnitude ≤ 0 else 0 ≤ rightMagnitude) :
    if leftSign ^^ rightSign then leftMagnitude * rightMagnitude ≤ 0
    else 0 ≤ leftMagnitude * rightMagnitude := by
  cases leftSign <;> cases rightSign
  · exact mul_nonneg leftBound rightBound
  · exact mul_nonpos_of_nonneg_of_nonpos leftBound rightBound
  · exact mul_nonpos_of_nonpos_of_nonneg leftBound rightBound
  · exact mul_nonneg_of_nonpos_of_nonpos leftBound rightBound

/-- The sign of a finite number is that of what it stands for; zero goes with both. -/
theorem sign_signed (negative : Bool) (steps : Nat) :
    if negative then (signed negative steps / stepsInOne : ℚ) ≤ 0
    else 0 ≤ (signed negative steps / stepsInOne : ℚ) := by
  cases negative with
  | false => exact div_nonneg (by simp [signed]) stepsInOne_pos.le
  | true => exact div_nonpos_of_nonpos_of_nonneg (by simp [signed]) stepsInOne_pos.le

/-- A product of moderate size is rounded once. -/
theorem mul (leftStands : left.StandsFor leftNumber) (rightStands : right.StandsFor rightNumber)
    (bound : |leftNumber * rightNumber| ≤ 2 ^ 64) :
    (left.mul right).StandsFor (rounded (leftNumber * rightNumber)) := by
  obtain ⟨leftSign, leftSteps, leftProof, rfl, rfl⟩ := leftStands.exists_finite
  obtain ⟨rightSign, rightSteps, rightProof, rfl, rfl⟩ := rightStands.exists_finite
  refine round_standsFor (Nat.cast_pos.mp stepsInOne_pos) bound ?_
    (sign_xor (sign_signed ..) (sign_signed ..))
  rw [abs_mul, abs_signed_div, abs_signed_div, mul_assoc, div_mul_cancel₀ _ stepsInOne_ne_zero,
    Nat.cast_mul, mul_div_right_comm]

/-- A finite number stands for one number only. -/
theorem unique {value : Binary64} (leftStands : value.StandsFor leftNumber)
    (rightStands : value.StandsFor rightNumber) : leftNumber = rightNumber :=
  leftStands.2.symm.trans rightStands.2

/-- What stands for a number other than zero has steps. -/
theorem steps_ne_zero {negative : Bool} {steps : Nat} {representable : Representable steps}
    (stands : (Binary64.finite negative steps representable).StandsFor leftNumber)
    (nonzero : leftNumber ≠ 0) : steps ≠ 0 := by
  rintro rfl
  refine nonzero (stands.unique ?_)
  simpa only [signed_zero, Int.cast_zero, zero_div] using finite negative 0 representable

/-- Division by anything but zero. -/
theorem div (leftStands : left.StandsFor leftNumber) (rightStands : right.StandsFor rightNumber)
    (nonzero : rightNumber ≠ 0) (bound : |leftNumber / rightNumber| ≤ 2 ^ 64) :
    (left.div right).StandsFor (rounded (leftNumber / rightNumber)) := by
  obtain ⟨leftSign, leftSteps, leftProof, rfl, rfl⟩ := leftStands.exists_finite
  obtain ⟨rightSign, rightSteps, rightProof, rfl, rfl⟩ := rightStands.exists_finite
  have steps := rightStands.steps_ne_zero nonzero
  rw [Binary64.div, if_neg steps]
  refine round_standsFor (Nat.pos_of_ne_zero steps) bound ?_ ?_
  · rw [abs_div, abs_signed_div, abs_signed_div, div_div_div_cancel_right₀ stepsInOne_ne_zero,
      Nat.cast_mul, mul_div_right_comm]
  · rw [div_eq_mul_inv]
    refine sign_xor (sign_signed ..) ?_
    cases rightSign with
    | false => exact inv_nonneg.mpr (sign_signed false rightSteps)
    | true => exact inv_nonpos.mpr (sign_signed true rightSteps)

/-- A number divided by zero is not finite, and is an infinity unless it is zero itself. -/
theorem div_zero (leftStands : left.StandsFor leftNumber) (rightStands : right.StandsFor 0) :
    left.div right = nan ∧ leftNumber = 0 ∨ ∃ negative, left.div right = infinity negative := by
  obtain ⟨leftSign, leftSteps, leftProof, rfl, rfl⟩ := leftStands.exists_finite
  obtain ⟨rightSign, rightSteps, rightProof, rfl, zero⟩ := rightStands.exists_finite
  rw [div_eq_zero_iff, or_iff_left stepsInOne_ne_zero, Int.cast_eq_zero, signed_eq_zero] at zero
  rw [Binary64.div, if_pos zero]
  split
  · rename_i none
    refine .inl ⟨rfl, ?_⟩
    rw [none, signed_zero, Int.cast_zero, zero_div]
  · exact .inr ⟨_, rfl⟩

end StandsFor

/-- A decimal of moderate size is rounded once. -/
theorem ofDecimal_standsFor {digits places : Nat}
    (bound : (digits / 10 ^ places : ℚ) ≤ 2 ^ 64) :
    (ofDecimal digits places).StandsFor (rounded (digits / 10 ^ places)) := by
  have nonnegative : (0 : ℚ) ≤ digits / 10 ^ places := by positivity
  refine round_standsFor (Nat.pow_pos (by decide)) (by rwa [abs_of_nonneg nonnegative]) ?_ nonnegative
  rw [abs_of_nonneg nonnegative, Nat.cast_mul, mul_div_right_comm, Nat.cast_pow, Nat.cast_ofNat]

/-- Whole numbers up to `2 ^ 53` are exact. -/
theorem ofNat_standsFor {value : Nat} (bound : value ≤ 2 ^ 53) : (ofNat value).StandsFor value := by
  have small : (value / 10 ^ 0 : ℚ) ≤ 2 ^ 64 := by
    rw [pow_zero, div_one]
    exact_mod_cast Nat.le_trans bound (by decide)
  have stands := ofDecimal_standsFor small
  have whole : rounded (value : ℚ) = value := rounded_whole value bound
  rwa [pow_zero, div_one, whole, ofDecimalWhole] at stands

end FourCards.Binary64
