/-
This file defines the exact values of expressions and proves that those of four cards keep away from
every whole number that they miss.
-/

import FourCards.Proofs.Grammar.Derivation
import Mathlib.Tactic

namespace FourCards

/-- The exact result; a zero divisor has none. -/
def Operator.rational? : Operator → ℚ → ℚ → Option ℚ
  | add, left, right => some (left + right)
  | sub, left, right => some (left - right)
  | mul, left, right => some (left * right)
  | div, left, right => if right = 0 then none else some (left / right)

/-- A quotient is defined where the divisor is not zero. -/
theorem Operator.rational?_div_eq_some_iff {left right value : ℚ} :
    div.rational? left right = some value ↔ right ≠ 0 ∧ left / right = value := by
  rw [rational?]
  split <;> simp_all

/-- The number that the decimal digits spell. -/
def Numeral.rational (numeral : Numeral) : ℚ :=
  Text.numberOf (numeral.whole ++ numeral.decimals) / 10 ^ numeral.decimals.length

/-- The value in rational arithmetic, unless something is divided by zero. -/
def Expression.rational? : Expression → Option ℚ
  | literal numeral => some numeral.rational
  | apply operator left right =>
      left.rational?.bind fun leftValue => right.rational?.bind (operator.rational? leftValue)

/-- The value is a ratio of integers no larger than these. -/
def IsRatio (numerator denominator : Nat) (value : ℚ) : Prop :=
  ∃ above below : ℤ, |above| ≤ numerator ∧ 0 < below ∧ below ≤ denominator ∧ value = above / below

namespace IsRatio

variable {numerator denominator otherNumerator otherDenominator : Nat} {value other : ℚ}

/-- A whole number is its own ratio to one. -/
theorem ofNat {number bound : Nat} (small : number ≤ bound) : IsRatio bound 1 number :=
  ⟨number, 1, by simpa using small, by decide, by decide, by simp⟩

/-- A ratio within bounds is one within larger bounds. -/
theorem mono (ratio : IsRatio numerator denominator value) (more : numerator ≤ otherNumerator)
    (moreBelow : denominator ≤ otherDenominator) : IsRatio otherNumerator otherDenominator value := by
  obtain ⟨above, below, aboveBound, positive, belowBound, rfl⟩ := ratio
  exact ⟨above, below, by omega, positive, by omega, rfl⟩

/-- Negation keeps the bounds of a ratio. -/
theorem neg (ratio : IsRatio numerator denominator value) :
    IsRatio numerator denominator (-value) := by
  obtain ⟨above, below, aboveBound, positive, belowBound, rfl⟩ := ratio
  refine ⟨-above, below, by rwa [abs_neg], positive, belowBound, ?_⟩
  rw [Int.cast_neg, neg_div]

/-- A sum has the bounds of fractions that are added. -/
theorem add (ratio : IsRatio numerator denominator value)
    (otherRatio : IsRatio otherNumerator otherDenominator other) :
    IsRatio (numerator * otherDenominator + otherNumerator * denominator)
      (denominator * otherDenominator) (value + other) := by
  obtain ⟨above, below, aboveBound, positive, belowBound, rfl⟩ := ratio
  obtain ⟨above', below', aboveBound', positive', belowBound', rfl⟩ := otherRatio
  refine ⟨above * below' + above' * below, below * below', ?_, mul_pos positive positive', ?_, ?_⟩
  · push_cast
    calc |above * below' + above' * below|
        ≤ |above * below'| + |above' * below| := abs_add_le _ _
      _ = |above| * below' + |above'| * below := by
          rw [abs_mul, abs_mul, abs_of_pos positive, abs_of_pos positive']
      _ ≤ numerator * otherDenominator + otherNumerator * denominator := by gcongr
  · push_cast
    gcongr
  · have nonzero : (below : ℚ) ≠ 0 := by exact_mod_cast positive.ne'
    have nonzero' : (below' : ℚ) ≠ 0 := by exact_mod_cast positive'.ne'
    push_cast
    rw [div_add_div _ _ nonzero nonzero', mul_comm (below : ℚ) above']

/-- A product has the products of the bounds. -/
theorem mul (ratio : IsRatio numerator denominator value)
    (otherRatio : IsRatio otherNumerator otherDenominator other) :
    IsRatio (numerator * otherNumerator) (denominator * otherDenominator) (value * other) := by
  obtain ⟨above, below, aboveBound, positive, belowBound, rfl⟩ := ratio
  obtain ⟨above', below', aboveBound', positive', belowBound', rfl⟩ := otherRatio
  refine ⟨above * above', below * below', ?_, mul_pos positive positive', ?_, ?_⟩
  · rw [abs_mul]
    push_cast
    gcongr
  · push_cast
    gcongr
  · push_cast
    rw [div_mul_div_comm]

/-- An inverse has the bounds in the other order. -/
theorem inv (ratio : IsRatio numerator denominator value) (nonzero : value ≠ 0) :
    IsRatio denominator numerator value⁻¹ := by
  obtain ⟨above, below, aboveBound, positive, belowBound, rfl⟩ := ratio
  have aboveNonzero : above ≠ 0 := by
    rintro rfl
    simp at nonzero
  rcases lt_or_gt_of_ne aboveNonzero with negative | positiveAbove
  · rw [abs_of_neg negative] at aboveBound
    refine ⟨-below, -above, ?_, neg_pos.mpr negative, aboveBound, ?_⟩
    · rwa [abs_neg, abs_of_pos positive]
    · rw [Int.cast_neg, Int.cast_neg, neg_div_neg_eq, inv_div]
  · rw [abs_of_pos positiveAbove] at aboveBound
    refine ⟨below, above, ?_, positiveAbove, aboveBound, ?_⟩
    · rwa [abs_of_pos positive]
    · rw [inv_div]

/-- A quotient has the bounds multiplied crosswise. -/
theorem div (ratio : IsRatio numerator denominator value)
    (otherRatio : IsRatio otherNumerator otherDenominator other) (nonzero : other ≠ 0) :
    IsRatio (numerator * otherDenominator) (denominator * otherNumerator) (value / other) := by
  rw [div_eq_mul_inv]
  exact ratio.mul (otherRatio.inv nonzero)

/-- A ratio is no larger than its numerator. -/
theorem abs_le (ratio : IsRatio numerator denominator value) : |value| ≤ numerator := by
  obtain ⟨above, below, aboveBound, positive, belowBound, rfl⟩ := ratio
  have one : (1 : ℚ) ≤ below := by exact_mod_cast positive
  have bound : |(above : ℚ)| ≤ numerator := by exact_mod_cast aboveBound
  rw [abs_div, abs_of_pos (zero_lt_one.trans_le one)]
  exact (div_le_self (abs_nonneg _) one).trans bound

/-- A ratio that is not the whole number keeps away from it. -/
theorem one_le_mul_abs_sub (ratio : IsRatio numerator denominator value) (whole : ℤ)
    (other : value ≠ whole) : 1 ≤ denominator * |value - whole| := by
  obtain ⟨above, below, aboveBound, positive, belowBound, rfl⟩ := ratio
  have positiveCast : (0 : ℚ) < below := by exact_mod_cast positive
  have apart : (above : ℚ) / below - whole = (above - whole * below : ℤ) / below := by
    rw [Int.cast_sub, Int.cast_mul, sub_div, mul_div_cancel_right₀ _ positiveCast.ne']
  have nonzero : above - whole * below ≠ 0 := by
    intro same
    rw [same, Int.cast_zero, zero_div, sub_eq_zero] at apart
    exact other apart
  have one : (1 : ℚ) ≤ |((above - whole * below : ℤ) : ℚ)| := by
    exact_mod_cast Int.one_le_abs nonzero
  have bound : (below : ℚ) ≤ denominator := by exact_mod_cast belowBound
  rw [apart, abs_div, abs_of_pos positiveCast, mul_div_assoc', le_div_iff₀ positiveCast, one_mul]
  calc (below : ℚ) = below * 1 := (mul_one _).symm
    _ ≤ denominator * |((above - whole * below : ℤ) : ℚ)| := by gcongr

/-- A ratio other than zero is no smaller than one part of its denominator. -/
theorem one_le_mul_abs (ratio : IsRatio numerator denominator value) (nonzero : value ≠ 0) :
    1 ≤ denominator * |value| := by
  have apart := ratio.one_le_mul_abs_sub 0 (by simpa using nonzero)
  simpa using apart

/-- The larger the value, the smaller its denominator. -/
theorem smaller_denominator (ratio : IsRatio numerator denominator value) (least : Nat)
    (large : least ≤ value) (positive : 0 < least) : IsRatio numerator (numerator / least) value := by
  obtain ⟨above, below, aboveBound, positiveBelow, belowBound, rfl⟩ := ratio
  refine ⟨above, below, aboveBound, positiveBelow, ?_, rfl⟩
  have positiveCast : (0 : ℚ) < below := by exact_mod_cast positiveBelow
  rw [le_div_iff₀ positiveCast] at large
  have product : (least : ℤ) * below ≤ above := by exact_mod_cast large
  have bound : below * least ≤ numerator := by linarith [le_abs_self above]
  rw [Int.natCast_div]
  exact (Int.le_ediv_iff_mul_le (by exact_mod_cast positive)).mpr bound

end IsRatio

namespace Expression

/-- The numerals spell values of cards and have no points. -/
def OfCards (expression : Expression) : Prop :=
  ∀ numeral ∈ expression.literals, numeral.decimals = [] ∧
    1 ≤ Text.numberOf numeral.whole ∧ Text.numberOf numeral.whole ≤ 13

/-- The count of numerals. -/
def size (expression : Expression) : Nat :=
  expression.literals.length

variable {operator : Operator} {left right : Expression} {value : ℚ}

theorem size_apply : (apply operator left right).size = left.size + right.size :=
  List.length_append

theorem size_pos (expression : Expression) : 0 < expression.size := by
  induction expression with
  | literal => exact Nat.one_pos
  | apply operator left right leftHypothesis rightHypothesis =>
      rw [size_apply]
      exact Nat.add_pos_left leftHypothesis _

/-- The left operand of an expression of cards is one of cards. -/
theorem OfCards.of_left (cards : (apply operator left right).OfCards) : left.OfCards :=
  fun numeral inside => cards numeral (List.mem_append_left _ inside)

/-- The right operand of an expression of cards is one of cards. -/
theorem OfCards.of_right (cards : (apply operator left right).OfCards) : right.OfCards :=
  fun numeral inside => cards numeral (List.mem_append_right _ inside)

/-- A value of an application is that of the operator at values of the operands. -/
theorem rational?_apply_eq_some_iff : (apply operator left right).rational? = some value ↔
    ∃ leftValue rightValue, left.rational? = some leftValue ∧ right.rational? = some rightValue ∧
      operator.rational? leftValue rightValue = some value := by
  simp only [rational?, Option.bind_eq_some_iff]
  tauto

/-- Only a card by itself has one numeral. -/
theorem OfCards.rational?_of_size_eq_one {expression : Expression} (cards : expression.OfCards)
    (single : expression.size = 1) : ∃ number : Nat, 1 ≤ number ∧ number ≤ 13 ∧
      expression.value = Binary64.ofNat number ∧ expression.rational? = some (number : ℚ) := by
  cases expression with
  | literal numeral =>
      obtain ⟨whole, lower, upper⟩ := cards numeral (List.mem_singleton_self _)
      refine ⟨_, lower, upper, ?_, ?_⟩
      · rw [Expression.value, Numeral.value, whole, List.append_nil]
        exact Binary64.ofDecimalWhole _
      · rw [rational?, Numeral.rational, whole, List.append_nil, List.length_nil, pow_zero, div_one]
  | apply operator left right =>
      have leftSize := left.size_pos
      have rightSize := right.size_pos
      rw [size_apply] at single
      omega

end Expression

/-- A quotient of cards may be as large as its inverse; anything else has a smaller denominator. -/
theorem IsRatio.operate {operator : Operator} {denominator otherDenominator : Nat}
    {left right value : ℚ} (leftRatio : IsRatio (13 * denominator) denominator left)
    (rightRatio : IsRatio (13 * otherDenominator) otherDenominator right)
    (result : operator.rational? left right = some value) :
    IsRatio (169 * (denominator * otherDenominator)) (denominator * otherDenominator) value ∨
      IsRatio (13 * (denominator * otherDenominator)) (13 * (denominator * otherDenominator))
        value := by
  have sum {other : ℚ} (ratio : IsRatio (13 * otherDenominator) otherDenominator other) :
      IsRatio (169 * (denominator * otherDenominator)) (denominator * otherDenominator)
        (left + other) := by
    refine (leftRatio.add ratio).mono ?_ le_rfl
    rw [Nat.mul_comm (13 * otherDenominator), Nat.mul_left_comm, Nat.mul_assoc]
    omega
  cases operator with
  | add =>
      cases result
      exact .inl (sum rightRatio)
  | sub =>
      cases result
      rw [sub_eq_add_neg]
      exact .inl (sum rightRatio.neg)
  | mul =>
      cases result
      refine .inl ((leftRatio.mul rightRatio).mono ?_ le_rfl)
      rw [Nat.mul_mul_mul_comm]
  | div =>
      obtain ⟨nonzero, rfl⟩ := Operator.rational?_div_eq_some_iff.mp result
      refine .inr ((leftRatio.div rightRatio nonzero).mono ?_ ?_)
      · rw [Nat.mul_assoc]
      · rw [Nat.mul_left_comm]

namespace Expression

variable {expression : Expression} {value : ℚ}

/-- The value of so many cards is a ratio of integers below powers of the highest one. -/
theorem OfCards.isRatio (cards : expression.OfCards) (result : expression.rational? = some value) :
    IsRatio (13 * 13 ^ (expression.size - 1)) (13 ^ (expression.size - 1)) value := by
  induction expression generalizing value with
  | literal numeral =>
      obtain ⟨number, -, upper, -, exact⟩ := cards.rational?_of_size_eq_one rfl
      rw [exact] at result
      cases result
      exact .ofNat upper
  | apply operator left right leftHypothesis rightHypothesis =>
      obtain ⟨leftValue, rightValue, leftExact, rightExact, result⟩ :=
        rational?_apply_eq_some_iff.mp result
      have leftSize := left.size_pos
      have rightSize := right.size_pos
      have power : 13 * (13 ^ (left.size - 1) * 13 ^ (right.size - 1)) =
          13 ^ ((apply operator left right).size - 1) := by
        rw [size_apply, ← Nat.pow_add, ← Nat.pow_succ']
        congr 1
        omega
      rw [← power]
      rcases (leftHypothesis cards.of_left leftExact).operate
        (rightHypothesis cards.of_right rightExact) result with ratio | ratio
      · exact ratio.mono (by omega) (by omega)
      · exact ratio.mono (by omega) le_rfl

/-- Four cards come to 24 or miss it by more than the tolerance. -/
theorem OfCards.eq_or_le_abs_sub (cards : expression.OfCards) (four : expression.size = 4)
    (result : expression.rational? = some value) : value = 24 ∨ 1 / 169 ≤ |value - 24| := by
  have apart {numerator denominator : Nat} (ratio : IsRatio numerator denominator value)
      (small : denominator ≤ 169) : value = 24 ∨ 1 / 169 ≤ |value - 24| := by
    rcases eq_or_ne value 24 with same | other
    · exact .inl same
    · have bound := (ratio.mono le_rfl small).one_le_mul_abs_sub 24 other
      push_cast at bound
      exact .inr (by linarith)
  cases expression with
  | literal => cases four
  | apply operator left right =>
      obtain ⟨leftValue, rightValue, leftExact, rightExact, result⟩ :=
        rational?_apply_eq_some_iff.mp result
      have leftSize := left.size_pos
      have rightSize := right.size_pos
      have power : 13 ^ (left.size - 1) * 13 ^ (right.size - 1) = 169 := by
        have rest : left.size - 1 + (right.size - 1) = 2 := by
          rw [size_apply] at four
          omega
        rw [← Nat.pow_add, rest]
      rcases (cards.of_left.isRatio leftExact).operate (cards.of_right.isRatio rightExact) result
        with ratio | ratio
      · exact apart ratio power.le
      · rw [power] at ratio
        -- The denominator of a quotient may go up to `13 * 169`, but not where the quotient is near 24.
        rcases lt_or_ge value 23 with below | large
        · right
          rw [abs_of_neg (by linarith)]
          linarith
        · exact apart (ratio.smaller_denominator 23 large (by decide)) (by decide)

end Expression

end FourCards
