/-
This file proves that a finite number is written as a numeral, and that the numeral is read as the
same number. A number below zero is written as a numeral after a minus.
-/

import FourCards.Binary64.Bits
import FourCards.Binary64.Decimal
import FourCards.Proofs.Binary64.Rational
import FourCards.Proofs.Grammar.Writing

namespace FourCards

namespace Binary64

/-- Representable steps stay below those that overflow. -/
theorem Representable.lt_overflowSteps {steps : Nat} (representable : Representable steps) :
    steps < overflowSteps := by
  obtain ⟨significand, shift, small, bound, rfl⟩ := representable
  have below := Nat.mul_lt_mul_of_pos_right small (Nat.two_pow_pos shift)
  rw [← Nat.pow_add] at below
  refine Nat.lt_of_lt_of_le below ?_
  rw [overflowSteps, Nat.pow_le_pow_iff_right Nat.one_lt_two]
  omega

/-- A ratio that is rounded to a representable number of steps gives the number of these steps. -/
theorem round_of_roundSteps {numerator denominator steps : Nat} (negative : Bool)
    (representable : Representable steps) (rounds : roundSteps numerator denominator = steps) :
    round negative numerator denominator = finite negative steps representable := by
  have inRange : roundSteps numerator denominator < overflowSteps :=
    rounds.trans_lt representable.lt_overflowSteps
  rw [round, dif_pos inRange]
  exact finiteCongr rounds

/-- A finite number whose sign is not set is given by its steps. -/
theorem exists_steps {value : Binary64} (finite : value.isFinite = true)
    (unsigned : value.isNegative = false) :
    ∃ steps representable, value = .finite false steps representable := by
  cases value with
  | nan => cases finite
  | infinity => cases finite
  | finite negative steps representable =>
      obtain rfl : negative = false := unsigned
      exact ⟨steps, representable, rfl⟩

/-- A finite number below zero has its sign set, and some steps. -/
theorem exists_steps_of_below {value : Binary64} (finite : value.isFinite = true)
    (below : value.less zero = true) :
    ∃ steps representable, steps ≠ 0 ∧ value = .finite true steps representable := by
  cases value with
  | nan => cases finite
  | infinity => cases finite
  | finite negative steps representable =>
      have small : signed negative steps < 0 := by simpa [less, zero, signed_zero] using below
      cases negative with
      | false => exact absurd small (Int.natCast_nonneg steps).not_gt
      | true =>
          refine ⟨steps, representable, ?_, rfl⟩
          rintro rfl
          simp [signed] at small

/-- Zero less a number is the number with the other sign, unless that is zero too. -/
theorem zero_sub {steps : Nat} (representable : Representable steps) (nonzero : steps ≠ 0) :
    zero.sub (finite false steps representable) = finite true steps representable := by
  have total : signed false 0 + signed true steps = -(steps : Int) := by
    simp [signed]
  have below : -(steps : Int) < 0 := by omega
  have exact : roundSteps steps 1 = steps := by
    simpa using roundStepsExact representable Nat.one_pos
  rw [zero, sub, negate, add, Bool.not_false, total, if_neg below.ne, decide_eq_true below,
    Int.natAbs_neg, Int.natAbs_natCast, round_of_roundSteps true representable exact]

end Binary64

namespace Decimal

/-- The digits with so many zeros before them that they reach beyond these places. -/
def padded (decimal : Decimal) (places : Nat) : List Char :=
  let digits := Nat.toDigits 10 decimal.digits
  List.replicate (places + 1 - digits.length) '0' ++ digits

/-- The numeral that is written for a decimal. -/
def numeral (decimal : Decimal) : Numeral :=
  if 1074 ≤ decimal.scale then
    ⟨Nat.toDigits 10 decimal.digits ++ List.replicate (decimal.scale - 1074) '0', []⟩
  else
    let places := 1074 - decimal.scale
    let digits := decimal.padded places
    ⟨digits.take (digits.length - places), digits.drop (digits.length - places)⟩

variable {decimal : Decimal} {places : Nat}

/-- The padded digits reach beyond the places, so one stands before the point. -/
theorem length_padded : places < (decimal.padded places).length := by
  simp only [padded, List.length_append, List.length_replicate]
  omega

theorem padded_isDigit : ∀ character ∈ decimal.padded places, character.isDigit = true := by
  intro character inside
  rcases List.mem_append.mp inside with zero | digit
  · rw [List.eq_of_mem_replicate zero]
    rfl
  · exact Nat.isDigit_of_mem_toDigits (by decide) (by decide) digit

/-- Zeros in front do not change the number that the digits write. -/
theorem numberOf_padded : Text.numberOf (decimal.padded places) = decimal.digits := by
  rw [padded, Text.numberOf, Nat.ofDigitChars_append, Nat.ofDigitChars_replicate_zero, Nat.mul_zero,
    Nat.ofDigitChars_toDigits (by decide) (by decide)]

/-- As many digits stand after the point as there are places. -/
theorem length_drop_padded :
    ((decimal.padded places).drop ((decimal.padded places).length - places)).length = places := by
  have longer : places < (decimal.padded places).length := length_padded
  rw [List.length_drop]
  omega

/-- A decimal is written as its numeral is. -/
theorem write_eq_write_numeral (decimal : Decimal) : decimal.write = decimal.numeral.write := by
  unfold write numeral
  split
  · rfl
  · rename_i fraction
    have decimals : (decimal.padded (1074 - decimal.scale)).drop
        ((decimal.padded (1074 - decimal.scale)).length - (1074 - decimal.scale)) ≠ [] := by
      refine List.ne_nil_of_length_pos ?_
      rw [length_drop_padded]
      omega
    rw [Numeral.write, if_neg decimals]
    rfl

/-- The numeral of a decimal is one of the grammar. -/
theorem numeral_spelled (decimal : Decimal) : decimal.numeral.Spelled := by
  unfold numeral
  split
  · constructor
    · simp [Nat.toDigits_ne_nil]
    · intro character inside
      rcases List.mem_append.mp inside with digit | zero
      · exact Nat.isDigit_of_mem_toDigits (by decide) (by decide) digit
      · rw [List.eq_of_mem_replicate zero]
        rfl
    · simp
  · constructor
    · refine List.ne_nil_of_length_pos ?_
      have longer : 1074 - decimal.scale < (decimal.padded (1074 - decimal.scale)).length :=
        length_padded
      rw [List.length_take]
      omega
    · exact fun character inside => padded_isDigit character (List.mem_of_mem_take inside)
    · exact fun character inside => padded_isDigit character (List.mem_of_mem_drop inside)

/-- The numeral spells the decimal, which counts units of `10 ^ -1074`. -/
theorem numberOf_numeral (decimal : Decimal) :
    Text.numberOf (decimal.numeral.whole ++ decimal.numeral.decimals) * 10 ^ 1074 =
      decimal.units * 10 ^ decimal.numeral.decimals.length := by
  unfold numeral units
  split
  · rename_i whole
    rw [List.append_nil, Text.numberOf, Nat.ofDigitChars_append,
      Nat.ofDigitChars_toDigits (by decide) (by decide), Nat.ofDigitChars_replicate_zero,
      Nat.mul_comm (10 ^ _), Nat.mul_assoc, ← Nat.pow_add, List.length_nil, Nat.pow_zero, Nat.mul_one,
      Nat.sub_add_cancel whole]
  · rename_i fraction
    rw [List.take_append_drop, numberOf_padded, length_drop_padded, Nat.mul_assoc, ← Nat.pow_add,
      Nat.add_sub_cancel' (by omega)]

/-- The numeral is read as the number that the decimal is nearest to. -/
theorem value_numeral (decimal : Decimal) :
    Binary64.roundSteps (Text.numberOf (decimal.numeral.whole ++ decimal.numeral.decimals) *
      Binary64.stepsInOne) (10 ^ decimal.numeral.decimals.length) = decimal.steps := by
  refine Binary64.roundSteps_congr (Nat.pow_pos (by decide)) unitsInStepPos ?_
  have tens (places : Nat) : 2 ^ places * 5 ^ places = 10 ^ places := by rw [← Nat.mul_pow]
  rw [← numberOf_numeral, Nat.mul_assoc, Binary64.stepsInOne, unitsInStep, tens]

end Decimal

namespace Binary64

/-- The numeral that is written for so many steps. -/
def numeral (steps : Nat) : Numeral :=
  if steps = 0 then .ofNat 0 else (Decimal.shortest steps).numeral

/-- The numeral for a number of steps is one of the grammar. -/
theorem numeral_spelled (steps : Nat) : (numeral steps).Spelled := by
  unfold numeral
  split
  · exact Numeral.ofNat_spelled 0
  · exact Decimal.numeral_spelled _

/-- A number is written, without its sign, as its numeral. -/
theorem writeMagnitude_eq_write (steps : Nat) : writeMagnitude steps = (numeral steps).write := by
  unfold writeMagnitude numeral
  split
  · rfl
  · exact Decimal.write_eq_write_numeral _

theorem value_zero : (Numeral.ofNat 0).value = zero := by
  rw [Numeral.valueOfNat, ofNat, Nat.zero_mul, round_zero, zero]

/-- The numeral is read as the number for which it is written. -/
theorem value_numeral {steps : Nat} (representable : Representable steps) :
    (numeral steps).value = finite false steps representable := by
  unfold numeral
  split
  · rename_i none
    subst none
    exact value_zero
  · rw [Numeral.value, ofDecimal]
    refine round_of_roundSteps false representable ?_
    rw [Decimal.value_numeral, Decimal.shortestSteps representable]

/-- The text of a finite number whose sign is not set is a numeral. -/
theorem exists_numeral {value : Binary64} (finite : value.isFinite = true)
    (unsigned : value.isNegative = false) :
    ∃ numeral : Numeral, numeral.Spelled ∧ value.text.toList = numeral.write := by
  obtain ⟨steps, representable, rfl⟩ := exists_steps finite unsigned
  refine ⟨numeral steps, numeral_spelled steps, ?_⟩
  rw [text, String.toList_ofList, writeMagnitude_eq_write]

end Binary64

namespace Expression

open Binary64

/-- A numeral by itself is evaluated to its value. -/
theorem evaluate_numeral {numeral : Numeral} (spelled : numeral.Spelled) :
    evaluate (String.ofList numeral.write) = .ok numeral.value := by
  have read := ofText_text (literal numeral) (by simpa [literals] using spelled) (Nat.zero_le _)
  rw [text, write] at read
  rw [evaluate, read]
  rfl

/-- A finite number whose sign is not set is evaluated from its own text. -/
theorem evaluate_text {value : Binary64} (finite : value.isFinite = true)
    (unsigned : value.isNegative = false) : evaluate value.text = .ok value := by
  obtain ⟨steps, representable, rfl⟩ := exists_steps finite unsigned
  rw [Binary64.text, writeMagnitude_eq_write, evaluate_numeral (numeral_spelled steps),
    value_numeral representable]

/-- A number below zero is evaluated from its text after a zero. -/
theorem evaluate_zero_append_text {value : Binary64} (finite : value.isFinite = true)
    (below : value.less zero = true) : evaluate ("0" ++ value.text) = .ok value := by
  obtain ⟨steps, representable, nonzero, rfl⟩ := exists_steps_of_below finite below
  let difference := apply .sub (literal (.ofNat 0)) (literal (Binary64.numeral steps))
  have read : ofText difference.text = .ok difference := by
    refine ofText_text difference ?_ (show 1 ≤ 257 by decide)
    simp [difference, literals, Numeral.ofNat_spelled, numeral_spelled]
  have written : "0" ++ (Binary64.finite true steps representable).text = difference.text := by
    rw [Binary64.text, writeMagnitude_eq_write]
    exact String.ofList_append.symm
  rw [written, evaluate, read, Except.map, value, value, value, value_zero,
    value_numeral representable, Operator.apply, zero_sub representable nonzero]

end Expression

end FourCards
