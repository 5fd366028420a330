/-
This file proves that a candidate of cards that comes to 24 exactly is computed as 24 from its operands,
unless it is listed as missed: rounding only touches quotients, and what follows makes up for it.
-/

import FourCards.Proofs.Search.Missed

namespace FourCards

open Binary64

namespace Binary64

/-- Eighths of moderate numbers are not rounded. -/
theorem rounded_eighths {eighths : ℤ} (bound : eighths.natAbs ≤ 2 ^ 53) :
    rounded (eighths / 8) = eighths / 8 := by
  obtain ⟨digits, split⟩ : ∃ digits, 1074 = 3 + digits := ⟨1071, rfl⟩
  have scale : stepsInOne = 8 * 2 ^ digits := by
    rw [stepsInOne, split, Nat.pow_add]
  have small : digits ≤ 2044 := by omega
  refine rounded_of_representable (representable_of_le bound small) ?_
  rw [scale, Nat.cast_mul, Nat.cast_mul, abs_div, ← mul_assoc, Nat.cast_natAbs, Int.cast_abs]
  norm_num

variable {number : Nat}

/-- A card is computed as it is. -/
theorem ofNat_standsFor_of_mem_cardValues (card : number ∈ cardValues) :
    (ofNat number).StandsFor number := by
  rw [mem_cardValues] at card
  exact ofNat_standsFor (by omega)

/-- A card counts its own units. -/
theorem ofNat_counts_of_mem_cardValues (card : number ∈ cardValues) :
    (ofNat number).Counts (number * unitsInOne) :=
  counts_mul_unitsInOne.mpr (ofNat_standsFor_of_mem_cardValues card)

end Binary64

theorem cast_pos_of_mem_cardValues {number : Nat} (card : number ∈ cardValues) : (0 : ℚ) < number :=
  Nat.cast_pos.mpr (mem_cardValues.mp card).1

namespace Operator

variable {operator : Operator} {above below first second : Nat} {value : ℚ}

/-- A pair of cards comes to its value, rounded. -/
theorem pair_standsFor_rounded (firstCard : first ∈ cardValues) (secondCard : second ∈ cardValues)
    (result : operator.rational? first second = some value) :
    (operator.apply (Binary64.ofNat first) (Binary64.ofNat second)).StandsFor (rounded value) ∧
      |value| ≤ 169 := by
  have firstSmall := (mem_cardValues.mp firstCard).2
  have secondSmall := (mem_cardValues.mp secondCard).2
  have bound : |value| ≤ 169 := by
    have ratio := @IsRatio.operate operator 1 1 _ _ _ (.ofNat firstSmall) (.ofNat secondSmall) result
    rcases ratio with ratio | ratio
    · exact_mod_cast ratio.abs_le
    · exact (ratio.abs_le).trans (by norm_num)
  refine ⟨?_, bound⟩
  exact apply_standsFor (ofNat_standsFor_of_mem_cardValues firstCard)
    (ofNat_standsFor_of_mem_cardValues secondCard) result (bound.trans (by norm_num))

/-- A result that is computed in units is the result. -/
theorem standsFor_of_units? {left right : Binary64} {leftUnits rightUnits number : Nat}
    (leftCounts : left.Counts leftUnits) (rightCounts : right.Counts rightUnits)
    (computed : operator.units? leftUnits rightUnits = some (number * unitsInOne)) :
    (operator.apply left right).StandsFor number :=
  counts_mul_unitsInOne.mp (apply_counts leftCounts rightCounts computed)

/-- A pair of cards comes to eighths, or it is a quotient that has no finite binary expansion. -/
theorem exists_eighths_or_quotient (result : operator.rational? first second = some value) :
    (∃ eighths : ℤ, value = eighths / 8) ∨
      operator = div ∧ value = first / second ∧ ¬ second ∣ 8 * first := by
  have whole (number : ℤ) : ∃ eighths : ℤ, (number : ℚ) = eighths / 8 :=
    ⟨8 * number, by push_cast; ring⟩
  cases operator with
  | add =>
      cases result
      exact .inl (by exact_mod_cast whole (first + second))
  | sub =>
      cases result
      exact .inl (by exact_mod_cast whole (first - second))
  | mul =>
      cases result
      exact .inl (by exact_mod_cast whole (first * second))
  | div =>
      obtain ⟨nonzero, rfl⟩ := rational?_div_eq_some_iff.mp result
      by_cases divides : second ∣ 8 * first
      · obtain ⟨eighths, same⟩ := divides
        have sameCast : (8 * first : ℚ) = second * eighths := by exact_mod_cast same
        refine .inl ⟨eighths, ?_⟩
        rw [div_eq_div_iff nonzero (by norm_num), Int.cast_natCast]
        linarith
      · exact .inr ⟨rfl, rfl, divides⟩

/-- Such a quotient is no number of eighths. -/
theorem quotient_ne_eighths (eighths : ℤ) (positive : 0 < second)
    (broken : ¬ second ∣ 8 * first) : (first / second : ℚ) ≠ eighths / 8 := by
  intro same
  have nonzero : (second : ℚ) ≠ 0 := by exact_mod_cast positive.ne'
  rw [div_eq_div_iff nonzero (by norm_num)] at same
  have sameWhole : (8 * first : ℤ) = second * eighths := by
    have swapped : (first * 8 : ℤ) = eighths * second := by exact_mod_cast same
    linarith
  exact broken (by exact_mod_cast Dvd.intro eighths sameWhole.symm)

/-- A pair that comes to eighths is computed as it is. -/
theorem pair_standsFor_eighths {eighths : ℤ} (firstCard : first ∈ cardValues)
    (secondCard : second ∈ cardValues) (result : operator.rational? first second = some value)
    (same : value = eighths / 8) :
    (operator.apply (Binary64.ofNat first) (Binary64.ofNat second)).StandsFor value := by
  obtain ⟨stands, bound⟩ := pair_standsFor_rounded firstCard secondCard result
  subst same
  have moderate : eighths.natAbs ≤ 2 ^ 53 := by
    rw [abs_div, abs_of_pos (by norm_num : (0 : ℚ) < 8), div_le_iff₀ (by norm_num)] at bound
    have small : |eighths| ≤ 169 * 8 := by exact_mod_cast bound
    rw [Int.abs_eq_natAbs] at small
    omega
  rwa [rounded_eighths moderate] at stands

/-- What is 24 together with a card is a whole number, or 24 divided by it. -/
theorem whole_or_product {last : Nat} (card : last ∈ cardValues)
    (result : operator.rational? value last = some 24) :
    (∃ whole : Nat, value = whole ∧ 11 ≤ whole ∧ whole ≤ 312) ∨
      operator = mul ∧ value = 24 / last := by
  obtain ⟨lower, upper⟩ := mem_cardValues.mp card
  cases operator with
  | add =>
      refine .inl ⟨24 - last, ?_, by omega, by omega⟩
      rw [Nat.cast_sub (by omega)]
      exact eq_sub_of_add_eq (Option.some.inj result)
  | sub =>
      refine .inl ⟨24 + last, ?_, by omega, by omega⟩
      push_cast
      exact eq_add_of_sub_eq (Option.some.inj result)
  | mul =>
      have nonzero : (last : ℚ) ≠ 0 := by exact_mod_cast (by omega : last ≠ 0)
      exact .inr ⟨rfl, eq_div_of_mul_eq nonzero (Option.some.inj result)⟩
  | div =>
      obtain ⟨nonzero, quotient⟩ := rational?_div_eq_some_iff.mp result
      refine .inl ⟨24 * last, ?_, by omega, by omega⟩
      push_cast
      exact (div_eq_iff nonzero).mp quotient

/-- If the left operand is computed as it is, so is 24. -/
theorem standsFor_of_exact {left right : Binary64} {leftNumber rightNumber : ℚ}
    (leftStands : left.StandsFor leftNumber) (rightStands : right.StandsFor rightNumber)
    (result : operator.rational? leftNumber rightNumber = some 24) :
    (operator.apply left right).StandsFor 24 := by
  have kept : rounded 24 = 24 := rounded_whole 24 (by decide)
  rw [← kept]
  exact apply_standsFor leftStands rightStands result (by norm_num)

/-- If the left operand is rounded once, the last card makes up for it. -/
theorem standsFor_of_rounded {left : Binary64} {last : Nat} (card : last ∈ cardValues)
    (leftStands : left.StandsFor (rounded value)) (result : operator.rational? value last = some 24) :
    (operator.apply left (Binary64.ofNat last)).StandsFor 24 := by
  rcases whole_or_product card result with ⟨whole, rfl, -, small⟩ | ⟨rfl, rfl⟩
  · have kept : rounded (whole : ℚ) = whole := rounded_whole whole (by simpa using by omega)
    rw [kept] at leftStands
    exact standsFor_of_exact leftStands (ofNat_standsFor_of_mem_cardValues card) result
  · obtain ⟨units, quotient, product⟩ :=
      Option.bind_eq_some_iff.mp (mul_quotientUnits? last card)
    have leftCounts := counts_of_quotientUnits? (by exact_mod_cast leftStands) quotient
    exact_mod_cast standsFor_of_units? leftCounts (ofNat_counts_of_mem_cardValues card) product

/-- A positive result is the fraction that is computed for it. -/
theorem eq_ratio (left right : Nat × Nat) (leftPositive : 0 < left.2) (rightPositive : 0 < right.2)
    (result : operator.rational? (left.1 / left.2) (right.1 / right.2) = some value)
    (positive : 0 < value) :
    0 < (operator.ratio left right).2 ∧
      value = (operator.ratio left right).1 / (operator.ratio left right).2 := by
  have leftNonzero : (left.2 : ℚ) ≠ 0 := by exact_mod_cast leftPositive.ne'
  have rightNonzero : (right.2 : ℚ) ≠ 0 := by exact_mod_cast rightPositive.ne'
  cases operator with
  | add =>
      cases result
      refine ⟨Nat.mul_pos leftPositive rightPositive, ?_⟩
      simp only [ratio]
      rw [div_add_div _ _ leftNonzero rightNonzero, mul_comm (left.2 : ℚ) right.1]
      push_cast
      rfl
  | sub =>
      cases result
      refine ⟨Nat.mul_pos leftPositive rightPositive, ?_⟩
      rw [div_sub_div _ _ leftNonzero rightNonzero] at positive ⊢
      have above := (div_pos_iff_of_pos_right (by positivity)).mp positive
      have less : right.1 * left.2 ≤ left.1 * right.2 := by
        have lessCast : (right.1 * left.2 : ℚ) ≤ left.1 * right.2 := by linarith
        exact_mod_cast lessCast
      simp only [ratio]
      rw [Nat.cast_sub less]
      push_cast
      rw [mul_comm (left.2 : ℚ) right.1]
  | mul =>
      cases result
      refine ⟨Nat.mul_pos leftPositive rightPositive, ?_⟩
      simp only [ratio]
      push_cast
      rw [div_mul_div_comm]
  | div =>
      obtain ⟨nonzero, rfl⟩ := rational?_div_eq_some_iff.mp result
      have rightAbove : right.1 ≠ 0 := by
        rintro none
        rw [none, Nat.cast_zero, zero_div] at nonzero
        exact nonzero rfl
      refine ⟨Nat.mul_pos leftPositive (Nat.pos_of_ne_zero rightAbove), ?_⟩
      simp only [ratio]
      push_cast
      rw [div_div_div_eq]

/-- A positive triple is the fraction that is computed for it. -/
theorem eq_ratio_withPair {nested : Bool} {other : Nat} (positiveBelow : 0 < below)
    (result : withPair nested operator.rational? (above / below : ℚ) other = some value)
    (positive : 0 < value) :
    0 < (withPair nested operator.ratio (above, below) (other, 1)).2 ∧
      value = (withPair nested operator.ratio (above, below) (other, 1)).1 /
        (withPair nested operator.ratio (above, below) (other, 1)).2 := by
  have one : (other : ℚ) = other / (1 : Nat) := by rw [Nat.cast_one, div_one]
  rw [one] at result
  cases nested with
  | false =>
      exact eq_ratio (above, below) (other, 1) positiveBelow Nat.one_pos result
        positive
  | true =>
      exact eq_ratio (other, 1) (above, below) Nat.one_pos positiveBelow result
        positive

/-- What is computed of a rounded quotient and a card in units is their value. -/
theorem counts_of_tripleUnits? {nested : Bool} {other units : Nat} (aboveCard : above ∈ cardValues)
    (belowCard : below ∈ cardValues) (otherCard : other ∈ cardValues)
    (computed : tripleUnits? nested operator above below other = some units) :
    (withPair nested operator.apply (div.apply (Binary64.ofNat above) (Binary64.ofNat below))
      (Binary64.ofNat other)).Counts units := by
  obtain ⟨pair, quotient, triple⟩ := Option.bind_eq_some_iff.mp computed
  have pairCounts := apply_counts (ofNat_counts_of_mem_cardValues aboveCard)
    (ofNat_counts_of_mem_cardValues belowCard) quotient
  have otherCounts := ofNat_counts_of_mem_cardValues otherCard
  cases nested with
  | false => exact apply_counts pairCounts otherCounts triple
  | true => exact apply_counts otherCounts pairCounts triple

section Quotient

variable {nested : Bool} {other : Nat} (aboveCard : above ∈ cardValues)
  (belowCard : below ∈ cardValues) (otherCard : other ∈ cardValues) (broken : ¬ below ∣ 8 * above)
  (triple : withPair nested operator.rational? (above / below : ℚ) other = some value)

include aboveCard belowCard otherCard broken triple

/-- A quotient without a finite binary expansion and a card come to a whole number other than 7 if they
do so exactly. -/
theorem counts_of_whole {whole : Nat} (same : value = whole) (positive : 0 < whole)
    (notSeven : whole ≠ 7) :
    (withPair nested operator.apply (div.apply (Binary64.ofNat above) (Binary64.ofNat below))
      (Binary64.ofNat other)).Counts (whole * unitsInOne) := by
  subst same
  obtain ⟨settled, -⟩ := tripleSettled_of_mem_cardValues above aboveCard below belowCard broken
    other otherCard operator (mem_all operator) nested
  obtain ⟨belowPositive, fraction⟩ := eq_ratio_withPair (mem_cardValues.mp belowCard).1 triple
    (Nat.cast_pos.mpr positive)
  generalize withPair nested operator.ratio (above, below) (other, 1) = ratio at *
  have multiple : ratio.1 = whole * ratio.2 := by
    rw [eq_div_iff (Nat.cast_ne_zero.mpr belowPositive.ne')] at fraction
    exact_mod_cast fraction.symm
  rw [multiple, Nat.mul_div_cancel _ belowPositive] at settled
  rcases settled with none | indivisible | seven | computed
  · exact absurd none (Nat.mul_pos positive belowPositive).ne'
  · exact absurd (Nat.dvd_mul_left _ _) indivisible
  · exact absurd (Nat.eq_of_mul_eq_mul_right belowPositive seven) notSeven
  · exact counts_of_tripleUnits? aboveCard belowCard otherCard computed

/-- If such a quotient and a card, times another card, make 24 exactly, they come to 24 as well, unless
the candidate is listed. -/
theorem mul_standsFor_of_product {last : Nat} (lastCard : last ∈ cardValues)
    (same : value = 24 / last)
    (notMissed : Candidate.ofQuotient nested operator above below other last ∉ Candidate.missed) :
    (mul.apply (withPair nested operator.apply
      (div.apply (Binary64.ofNat above) (Binary64.ofNat below)) (Binary64.ofNat other))
        (Binary64.ofNat last)).StandsFor 24 := by
  subst same
  obtain ⟨-, settled⟩ := tripleSettled_of_mem_cardValues above aboveCard below belowCard broken
    other otherCard operator (mem_all operator) nested
  have lastPositive := cast_pos_of_mem_cardValues lastCard
  obtain ⟨belowPositive, fraction⟩ := eq_ratio_withPair (mem_cardValues.mp belowCard).1 triple
    (div_pos (by norm_num) lastPositive)
  generalize withPair nested operator.ratio (above, below) (other, 1) = ratio at *
  -- The last card is determined by the others, and so the check did not run over it.
  have product : 24 * ratio.2 = last * ratio.1 := by
    rw [div_eq_div_iff lastPositive.ne' (Nat.cast_ne_zero.mpr belowPositive.ne')] at fraction
    have whole : 24 * ratio.2 = ratio.1 * last := by exact_mod_cast fraction
    rwa [Nat.mul_comm ratio.1] at whole
  have abovePositive : 0 < ratio.1 := by
    by_contra none
    rw [Nat.eq_zero_of_not_pos none] at product
    omega
  rw [Nat.div_eq_of_eq_mul_left abovePositive product] at settled
  rcases settled with different | large | computed | missed
  · exact absurd product.symm different
  · exact absurd (mem_cardValues.mp lastCard).2 (Nat.not_le_of_lt large)
  · obtain ⟨units, computedTriple, computed⟩ := Option.bind_eq_some_iff.mp computed
    exact_mod_cast standsFor_of_units?
      (counts_of_tripleUnits? aboveCard belowCard otherCard computedTriple)
      (ofNat_counts_of_mem_cardValues lastCard) computed
  · exact absurd missed notMissed

/-- A quotient without a finite binary expansion and two cards come to 24 if they do so exactly, unless
the candidate is listed. -/
theorem standsFor_of_quotient {root : Operator} {last : Nat} (lastCard : last ∈ cardValues)
    (result : root.rational? value last = some 24)
    (notMissed : root = mul →
      Candidate.ofQuotient nested operator above below other last ∉ Candidate.missed) :
    (root.apply (withPair nested operator.apply
      (div.apply (Binary64.ofNat above) (Binary64.ofNat below)) (Binary64.ofNat other))
        (Binary64.ofNat last)).StandsFor 24 := by
  rcases whole_or_product lastCard result with ⟨whole, same, lower, -⟩ | ⟨rfl, same⟩
  · have counts := counts_of_whole aboveCard belowCard otherCard broken triple same (by omega)
      (by omega)
    refine standsFor_of_exact ?_ (ofNat_standsFor_of_mem_cardValues lastCard) result
    rw [same]
    exact counts_mul_unitsInOne.mp counts
  · exact mul_standsFor_of_product aboveCard belowCard otherCard broken triple lastCard same
      (notMissed rfl)

end Quotient

/-- A pair, a card and another one come to 24 if they do so exactly, unless the candidate is listed. -/
theorem standsFor_of_triple (nested : Bool) {pair root : Operator} {other last : Nat}
    {pairValue : ℚ} (firstCard : first ∈ cardValues) (secondCard : second ∈ cardValues)
    (otherCard : other ∈ cardValues) (lastCard : last ∈ cardValues)
    (pairResult : pair.rational? first second = some pairValue)
    (triple : withPair nested operator.rational? pairValue other = some value)
    (result : root.rational? value last = some 24)
    (notMissed : pair = div → root = mul →
      Candidate.ofQuotient nested operator first second other last ∉ Candidate.missed) :
    (root.apply (withPair nested operator.apply
      (pair.apply (Binary64.ofNat first) (Binary64.ofNat second)) (Binary64.ofNat other))
        (Binary64.ofNat last)).StandsFor 24 := by
  rcases exists_eighths_or_quotient pairResult with ⟨eighths, same⟩ | ⟨rfl, rfl, broken⟩
  · have pairStands := pair_standsFor_eighths firstCard secondCard pairResult same
    have otherStands := ofNat_standsFor_of_mem_cardValues otherCard
    have bound : |value| ≤ 2 ^ 64 := by
      rcases whole_or_product lastCard result with ⟨whole, rfl, -, small⟩ | ⟨rfl, rfl⟩
      · rw [abs_of_nonneg (Nat.cast_nonneg whole)]
        exact_mod_cast Nat.le_trans small (by decide)
      · have one : (1 : ℚ) ≤ last := Nat.one_le_cast.mpr (mem_cardValues.mp lastCard).1
        rw [abs_of_nonneg (by positivity)]
        exact (div_le_self (by norm_num) one).trans (by norm_num)
    refine standsFor_of_rounded lastCard ?_ result
    cases nested with
    | false =>
        rw [withPair_false] at triple ⊢
        exact apply_standsFor pairStands otherStands triple bound
    | true =>
        rw [withPair_true] at triple ⊢
        exact apply_standsFor otherStands pairStands triple bound
  · exact standsFor_of_quotient firstCard secondCard otherCard broken triple lastCard result
      (notMissed rfl)

/-- A positive pair is a whole number or the quotient of its cards. -/
theorem exists_fraction (secondCard : second ∈ cardValues)
    (result : operator.rational? first second = some value) (positive : 0 < value) :
    ∃ above below : Nat, below ∈ cardValues ∧ value = (above / below : ℚ) ∧
      (below = 1 ∨ operator = div ∧ above = first ∧ below = second) := by
  have one : (1 : ℕ) ∈ cardValues := by decide
  cases operator with
  | add =>
      cases result
      exact ⟨first + second, 1, one, by simp, .inl rfl⟩
  | sub =>
      cases result
      have less : second ≤ first := by
        have lessCast : (second : ℚ) ≤ first := by linarith
        exact_mod_cast lessCast
      exact ⟨first - second, 1, one, by rw [Nat.cast_sub less, Nat.cast_one, div_one], .inl rfl⟩
  | mul =>
      cases result
      exact ⟨first * second, 1, one, by simp, .inl rfl⟩
  | div =>
      obtain ⟨-, rfl⟩ := rational?_div_eq_some_iff.mp result
      exact ⟨first, second, secondCard, rfl, .inr ⟨rfl, rfl, rfl⟩⟩

/-- A quotient without a finite binary expansion is at most half the highest card. -/
theorem quotient_le (firstCard : first ∈ cardValues) (secondCard : second ∈ cardValues)
    (broken : ¬ second ∣ 8 * first) : (first / second : ℚ) ≤ 13 / 2 := by
  rw [mem_cardValues] at firstCard secondCard
  have two : 2 ≤ second := by
    by_contra one
    exact broken ((by omega : second = 1) ▸ Nat.one_dvd _)
  have twoCast : (2 : ℚ) ≤ second := by exact_mod_cast two
  have upper : (first : ℚ) ≤ 13 := by exact_mod_cast firstCard.2
  gcongr

/-- A quotient without a finite binary expansion times a fraction comes to 24 if it does so exactly. -/
theorem standsFor_of_product {left right : Binary64} {otherAbove otherBelow : Nat}
    (aboveCard : above ∈ cardValues) (belowCard : below ∈ cardValues) (broken : ¬ below ∣ 8 * above)
    (otherCard : otherBelow ∈ cardValues) (small : otherBelow = 1 ∨ otherAbove ≤ 13)
    (leftStands : left.StandsFor (rounded (above / below)))
    (rightStands : right.StandsFor (rounded (otherAbove / otherBelow)))
    (result : (above / below : ℚ) * (otherAbove / otherBelow) = 24) :
    (left.mul right).StandsFor 24 ∧ (right.mul left).StandsFor 24 := by
  have settled := (quotientsSettled_of_mem_cardValues above aboveCard below belowCard broken
    otherBelow otherCard).1
  have belowNonzero := (cast_pos_of_mem_cardValues belowCard).ne'
  have otherNonzero := (cast_pos_of_mem_cardValues otherCard).ne'
  -- The other numerator is determined by the rest, and so the check did not run over it.
  have product : 24 * below * otherBelow = otherAbove * above := by
    rw [div_mul_div_comm, div_eq_iff (mul_ne_zero belowNonzero otherNonzero)] at result
    have whole : above * otherAbove = 24 * (below * otherBelow) := by exact_mod_cast result
    rw [Nat.mul_assoc, ← whole, Nat.mul_comm]
  rw [Nat.div_eq_of_eq_mul_left (mem_cardValues.mp aboveCard).1 product] at settled
  rcases settled with other | ⟨notWhole, large⟩ | computed
  · exact absurd product.symm other
  · omega
  · obtain ⟨leftUnits, leftComputed, computed⟩ := Option.bind_eq_some_iff.mp computed
    obtain ⟨rightUnits, rightComputed, computed⟩ := Option.bind_eq_some_iff.mp computed
    have leftCounts := counts_of_quotientUnits? leftStands leftComputed
    have rightCounts := counts_of_quotientUnits? rightStands rightComputed
    have swapped : mul.units? rightUnits leftUnits = some (24 * unitsInOne) := by
      rwa [units?, Nat.mul_comm]
    constructor
    · exact_mod_cast standsFor_of_units? leftCounts rightCounts computed
    · exact_mod_cast standsFor_of_units? rightCounts leftCounts swapped

/-- A fraction divided by such a quotient comes to 24 if it does so exactly, unless the candidate is
listed. -/
theorem standsFor_of_division {left right : Binary64} {otherAbove otherBelow : Nat}
    (aboveCard : above ∈ cardValues) (belowCard : below ∈ cardValues) (broken : ¬ below ∣ 8 * above)
    (otherCard : otherBelow ∈ cardValues) (small : otherBelow = 1 ∨ otherAbove ≤ 13)
    (leftStands : left.StandsFor (rounded (otherAbove / otherBelow)))
    (rightStands : right.StandsFor (rounded (above / below)))
    (result : (otherAbove / otherBelow : ℚ) = 24 * (above / below))
    (notMissed : otherBelow ≠ 1 →
      (⟨⟨otherAbove, otherBelow, above, below⟩, div, div, div, .pairs⟩ : Candidate) ∉
        Candidate.missed) :
    (left.div right).StandsFor 24 := by
  have settled := (quotientsSettled_of_mem_cardValues above aboveCard below belowCard broken
    otherBelow otherCard).2
  have belowNonzero := (cast_pos_of_mem_cardValues belowCard).ne'
  have otherNonzero := (cast_pos_of_mem_cardValues otherCard).ne'
  have product : 24 * above * otherBelow = otherAbove * below := by
    rw [mul_div_assoc', div_eq_div_iff otherNonzero belowNonzero] at result
    exact_mod_cast result.symm
  rw [Nat.div_eq_of_eq_mul_left (mem_cardValues.mp belowCard).1 product] at settled
  rcases settled with other | ⟨notWhole, large⟩ | computed | ⟨notWhole, missed⟩
  · exact absurd product.symm other
  · omega
  · obtain ⟨leftUnits, leftComputed, computed⟩ := Option.bind_eq_some_iff.mp computed
    obtain ⟨rightUnits, rightComputed, computed⟩ := Option.bind_eq_some_iff.mp computed
    exact_mod_cast standsFor_of_units? (counts_of_quotientUnits? leftStands leftComputed)
      (counts_of_quotientUnits? rightStands rightComputed) computed
  · exact absurd missed (notMissed notWhole)

section Pairs

variable {left right root : Operator} {third fourth : Nat} {leftValue rightValue : ℚ}

/-- A pair and a quotient without a finite binary expansion do not add up to 24, nor to 24 less. -/
theorem sum_ne (firstCard : first ∈ cardValues) (secondCard : second ∈ cardValues)
    (thirdCard : third ∈ cardValues) (fourthCard : fourth ∈ cardValues)
    (leftResult : left.rational? first second = some leftValue) (broken : ¬ fourth ∣ 8 * third) :
    leftValue + third / fourth ≠ 24 ∧ leftValue - third / fourth ≠ 24 := by
  have positive : 0 < fourth := (mem_cardValues.mp fourthCard).1
  have upper := quotient_le thirdCard fourthCard broken
  have lower : (0 : ℚ) ≤ third / fourth := by positivity
  rcases exists_eighths_or_quotient leftResult with ⟨eighths, rfl⟩ | ⟨rfl, rfl, leftBroken⟩
  · constructor
    · intro sum
      refine quotient_ne_eighths (192 - eighths) positive broken ?_
      push_cast
      linarith
    · intro difference
      refine quotient_ne_eighths (eighths - 192) positive broken ?_
      push_cast
      linarith
  · have leftUpper := quotient_le firstCard secondCard leftBroken
    constructor <;> intro same <;> linarith

/-- A pair and a quotient without a finite binary expansion come to 24 if they do so exactly, unless the
candidate is listed. -/
theorem standsFor_of_right_quotient (firstCard : first ∈ cardValues)
    (secondCard : second ∈ cardValues) (thirdCard : third ∈ cardValues)
    (fourthCard : fourth ∈ cardValues) (leftResult : left.rational? first second = some leftValue)
    (broken : ¬ fourth ∣ 8 * third) (result : root.rational? leftValue (third / fourth) = some 24)
    (notMissed : (⟨⟨first, second, third, fourth⟩, left, root, div, .pairs⟩ : Candidate) ∉
      Candidate.missed) :
    (root.apply (left.apply (Binary64.ofNat first) (Binary64.ofNat second))
      (div.apply (Binary64.ofNat third) (Binary64.ofNat fourth))).StandsFor 24 := by
  have leftStands := (pair_standsFor_rounded firstCard secondCard leftResult).1
  have firstUpper := (mem_cardValues.mp firstCard).2
  have fourthPositive := cast_pos_of_mem_cardValues fourthCard
  have quotientPositive : (0 : ℚ) < third / fourth :=
    div_pos (cast_pos_of_mem_cardValues thirdCard) fourthPositive
  have rightResult : div.rational? third fourth = some (third / fourth : ℚ) :=
    if_neg fourthPositive.ne'
  have rightStands := (pair_standsFor_rounded thirdCard fourthCard rightResult).1
  obtain ⟨sum, difference⟩ := sum_ne firstCard secondCard thirdCard fourthCard leftResult broken
  cases root with
  | add => exact absurd (Option.some.inj result) sum
  | sub => exact absurd (Option.some.inj result) difference
  | mul =>
      have product := Option.some.inj result
      have leftPositive : 0 < leftValue := by
        by_contra notPositive
        nlinarith
      obtain ⟨above, below, card, rfl, fraction⟩ := exists_fraction secondCard leftResult leftPositive
      rw [mul_comm] at product
      exact (standsFor_of_product thirdCard fourthCard broken card (by omega) rightStands leftStands
        product).2
  | div =>
      obtain ⟨nonzero, quotient⟩ := rational?_div_eq_some_iff.mp result
      have multiple := (div_eq_iff nonzero).mp quotient
      have leftPositive : 0 < leftValue := by
        rw [multiple]
        positivity
      obtain ⟨above, below, card, rfl, fraction⟩ := exists_fraction secondCard leftResult leftPositive
      refine standsFor_of_division thirdCard fourthCard broken card (by omega) leftStands rightStands
        multiple fun notWhole => ?_
      obtain ⟨rfl, rfl, rfl⟩ := fraction.resolve_left notWhole
      exact notMissed

/-- Such a quotient and a pair that comes to eighths come to 24 if they do so exactly. -/
theorem standsFor_of_left_quotient {eighths : ℤ} (firstCard : first ∈ cardValues)
    (secondCard : second ∈ cardValues) (thirdCard : third ∈ cardValues)
    (fourthCard : fourth ∈ cardValues) (broken : ¬ second ∣ 8 * first)
    (rightResult : right.rational? third fourth = some rightValue) (same : rightValue = eighths / 8)
    (result : root.rational? (first / second) rightValue = some 24) :
    (root.apply (div.apply (Binary64.ofNat first) (Binary64.ofNat second))
      (right.apply (Binary64.ofNat third) (Binary64.ofNat fourth))).StandsFor 24 := by
  have positive := (mem_cardValues.mp secondCard).1
  have thirdUpper := (mem_cardValues.mp thirdCard).2
  have rightStands := (pair_standsFor_rounded thirdCard fourthCard rightResult).1
  cases root with
  | add =>
      have sum := Option.some.inj result
      refine absurd ?_ (quotient_ne_eighths (192 - eighths) positive broken)
      push_cast
      linarith
  | sub =>
      have difference := Option.some.inj result
      refine absurd ?_ (quotient_ne_eighths (192 + eighths) positive broken)
      push_cast
      linarith
  | mul =>
      have product := Option.some.inj result
      have nonnegative : (0 : ℚ) ≤ first / second := by positivity
      have rightPositive : 0 < rightValue := by
        by_contra notPositive
        nlinarith
      have leftResult : div.rational? first second = some (first / second : ℚ) :=
        if_neg (cast_pos_of_mem_cardValues secondCard).ne'
      have leftStands := (pair_standsFor_rounded firstCard secondCard leftResult).1
      obtain ⟨above, below, card, rfl, fraction⟩ := exists_fraction fourthCard rightResult rightPositive
      exact (standsFor_of_product firstCard secondCard broken card (by omega) leftStands rightStands
        product).1
  | div =>
      obtain ⟨nonzero, quotient⟩ := rational?_div_eq_some_iff.mp result
      have multiple := (div_eq_iff nonzero).mp quotient
      refine absurd ?_ (quotient_ne_eighths (24 * eighths) positive broken)
      push_cast
      linarith

/-- Two pairs come to 24 if they do so exactly, unless the candidate is listed. -/
theorem standsFor_of_pairs (firstCard : first ∈ cardValues) (secondCard : second ∈ cardValues)
    (thirdCard : third ∈ cardValues) (fourthCard : fourth ∈ cardValues)
    (leftResult : left.rational? first second = some leftValue)
    (rightResult : right.rational? third fourth = some rightValue)
    (result : root.rational? leftValue rightValue = some 24)
    (notMissed : (⟨⟨first, second, third, fourth⟩, left, root, right, .pairs⟩ : Candidate) ∉
      Candidate.missed) :
    (root.apply (left.apply (Binary64.ofNat first) (Binary64.ofNat second))
      (right.apply (Binary64.ofNat third) (Binary64.ofNat fourth))).StandsFor 24 := by
  rcases exists_eighths_or_quotient rightResult with ⟨rightEighths, rightSame⟩ | ⟨rfl, rfl, rightBroken⟩
  · rcases exists_eighths_or_quotient leftResult with ⟨leftEighths, leftSame⟩ | ⟨rfl, rfl, leftBroken⟩
    · exact standsFor_of_exact
        (pair_standsFor_eighths firstCard secondCard leftResult leftSame)
        (pair_standsFor_eighths thirdCard fourthCard rightResult rightSame) result
    · exact standsFor_of_left_quotient firstCard secondCard thirdCard fourthCard leftBroken
        rightResult rightSame result
  · exact standsFor_of_right_quotient firstCard secondCard thirdCard fourthCard leftResult
      rightBroken result notMissed

end Pairs

end Operator

end FourCards
