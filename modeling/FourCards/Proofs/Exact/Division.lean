/-
This file proves that a divisor made of cards that is exactly zero is computed as zero, and says what
comes of dividing by it: a value that is not finite, or zero once it is a divisor itself.
-/

import FourCards.Proofs.Exact.Rounding

namespace FourCards

open Binary64

namespace Operator

variable {operator : Operator} {left right : Binary64} {leftNumber rightNumber : ℚ}

/-- An operation has no exact result only where it divides by zero. -/
theorem rational?_eq_none_iff :
    operator.rational? leftNumber rightNumber = none ↔ operator = div ∧ rightNumber = 0 := by
  cases operator <;> simp [rational?]

/-- An infinity on the left of a card stays one. -/
theorem apply_infinity_left (negative : Bool) (rightStands : right.StandsFor rightNumber)
    (nonzero : rightNumber ≠ 0) : (operator.apply (infinity negative) right).isFinite = false := by
  obtain ⟨rightSign, rightSteps, rightProof, rfl, -⟩ := rightStands.exists_finite
  have steps := rightStands.steps_ne_zero nonzero
  cases operator with
  | add => rfl
  | sub => rfl
  | mul =>
      rw [apply, Binary64.mul, if_neg steps]
      rfl
  | div => rfl

/-- An infinity on the right of a card stays one, unless it divides the card. -/
theorem apply_infinity_right (negative : Bool) (leftStands : left.StandsFor leftNumber)
    (nonzero : leftNumber ≠ 0) :
    (operator.apply left (infinity negative)).isFinite = false ∨
      operator = div ∧ (operator.apply left (infinity negative)).StandsFor 0 := by
  obtain ⟨leftSign, leftSteps, leftProof, rfl, -⟩ := leftStands.exists_finite
  have steps := leftStands.steps_ne_zero nonzero
  cases operator with
  | add => exact .inl rfl
  | sub => exact .inl rfl
  | mul =>
      left
      rw [apply, Binary64.mul, if_neg steps]
      rfl
  | div =>
      refine .inr ⟨rfl, rfl, ?_⟩
      rw [apply, Binary64.div, rational, signed_zero, Int.cast_zero, zero_div]

end Operator

namespace Expression

variable {expression left right : Expression} {operator : Operator} {value : ℚ}

/-- There is no exact value if there is none of an operand or if the right one is a zero divisor. -/
theorem rational?_apply_eq_none_iff : (apply operator left right).rational? = none ↔
    left.rational? = none ∨ right.rational? = none ∨
      operator = .div ∧ right.rational? = some 0 ∧ ∃ leftValue, left.rational? = some leftValue := by
  cases leftExact : left.rational? with
  | none => simp [rational?, leftExact]
  | some leftValue =>
      cases rightExact : right.rational? with
      | none => simp [rational?, leftExact, rightExact]
      | some rightValue =>
          simp [rational?, leftExact, rightExact, Operator.rational?_eq_none_iff]

/-- A card is not zero. -/
theorem OfCards.ne_zero_of_size_eq_one (cards : expression.OfCards)
    (single : expression.size = 1) (result : expression.rational? = some value) : value ≠ 0 := by
  obtain ⟨number, lower, -, -, exact⟩ := cards.rational?_of_size_eq_one single
  rw [exact] at result
  cases result
  exact_mod_cast Nat.pos_iff_ne_zero.mp lower

/-- A single card is a whole number. -/
theorem OfCards.exists_whole_of_size_eq_one (cards : expression.OfCards)
    (single : expression.size = 1) (result : expression.rational? = some value) :
    ∃ whole : ℤ, value = whole := by
  obtain ⟨number, -, -, -, exact⟩ := cards.rational?_of_size_eq_one single
  rw [exact] at result
  cases result
  exact ⟨number, by simp⟩

/-- A whole number made of two cards is computed exactly. -/
theorem OfCards.standsFor_whole (cards : expression.OfCards) (few : expression.size ≤ 2)
    {whole : ℤ} (result : expression.rational? = some (whole : ℚ)) :
    expression.value.StandsFor whole := by
  cases expression with
  | literal numeral => exact cards.standsFor_of_size_eq_one rfl result
  | apply operator left right =>
      have bound := cards.abs_le result
      obtain ⟨leftValue, rightValue, leftExact, rightExact, result⟩ :=
        rational?_apply_eq_some_iff.mp result
      have leftPositive := left.size_pos
      have rightPositive := right.size_pos
      rw [size_apply] at few bound
      have two : left.size + right.size = 2 := by omega
      rw [two] at bound
      have small : |whole| ≤ 169 := by exact_mod_cast bound
      have natSmall : whole.natAbs ≤ 2 ^ 53 := by
        rw [Int.abs_eq_natAbs] at small
        omega
      rw [← rounded_whole whole natSmall]
      refine Operator.apply_standsFor (cards.of_left.standsFor_of_size_eq_one (by omega) leftExact)
        (cards.of_right.standsFor_of_size_eq_one (by omega) rightExact) result ?_
      exact_mod_cast small.trans (by norm_num)

/-- Of three cards one stands by itself, so two values that differ at most in sign are whole. -/
theorem OfCards.exists_whole {leftValue rightValue : ℚ} (cards : (apply operator left right).OfCards)
    (few : left.size + right.size ≤ 3) (leftExact : left.rational? = some leftValue)
    (rightExact : right.rational? = some rightValue)
    (alike : rightValue = leftValue ∨ rightValue = -leftValue) :
    ∃ leftWhole rightWhole : ℤ, leftValue = leftWhole ∧ rightValue = rightWhole := by
  have leftPositive := left.size_pos
  have rightPositive := right.size_pos
  rcases Nat.lt_or_ge left.size 2 with single | _
  · obtain ⟨whole, rfl⟩ := cards.of_left.exists_whole_of_size_eq_one (by omega) leftExact
    rcases alike with rfl | rfl
    · exact ⟨whole, whole, rfl, rfl⟩
    · exact ⟨whole, -whole, rfl, (Int.cast_neg whole).symm⟩
  · obtain ⟨whole, rfl⟩ := cards.of_right.exists_whole_of_size_eq_one (by omega) rightExact
    rcases alike with same | opposite
    · exact ⟨whole, whole, same.symm, rfl⟩
    · exact ⟨-whole, whole, by rw [Int.cast_neg, opposite, neg_neg], rfl⟩

/-- A zero made of three cards is computed as zero. -/
theorem OfCards.standsFor_zero (cards : expression.OfCards) (few : expression.size ≤ 3)
    (result : expression.rational? = some 0) : expression.value.StandsFor 0 := by
  cases expression with
  | literal numeral => exact cards.standsFor_of_size_eq_one rfl result
  | apply operator left right =>
      obtain ⟨leftValue, rightValue, leftExact, rightExact, result⟩ :=
        rational?_apply_eq_some_iff.mp result
      have leftPositive := left.size_pos
      have rightPositive := right.size_pos
      rw [size_apply] at few
      obtain ⟨leftActual, rightActual, actual, leftStands, rightStands, computed, -⟩ :=
        cards.exists_actual (by omega) leftExact rightExact result
          (cards.of_left.near (by omega) leftExact) (cards.of_right.near (by omega) rightExact)
      have leftWhole (whole : ℤ) (same : leftValue = whole) : leftActual = whole := by
        subst same
        exact leftStands.unique (cards.of_left.standsFor_whole (by omega) leftExact)
      have rightWhole (whole : ℤ) (same : rightValue = whole) : rightActual = whole := by
        subst same
        exact rightStands.unique (cards.of_right.standsFor_whole (by omega) rightExact)
      -- The operands need not be computed exactly. A sum or a difference is zero only if they are alike
      -- up to sign, and then both are whole; for a product or a quotient one of them has to be zero.
      have zero : operator.rational? leftActual rightActual = some 0 := by
        cases operator with
        | add =>
            have opposite := eq_neg_of_add_eq_zero_right (Option.some.inj result)
            obtain ⟨_, _, rfl, rfl⟩ :=
              cards.exists_whole few leftExact rightExact (.inr opposite)
            rwa [leftWhole _ rfl, rightWhole _ rfl]
        | sub =>
            have same := (sub_eq_zero.mp (Option.some.inj result)).symm
            obtain ⟨_, _, rfl, rfl⟩ := cards.exists_whole few leftExact rightExact (.inl same)
            rwa [leftWhole _ rfl, rightWhole _ rfl]
        | mul =>
            rw [Operator.rational?, Option.some.injEq, mul_eq_zero] at result ⊢
            rcases result with none | none
            · exact .inl (by simpa using leftWhole 0 (by simpa using none))
            · exact .inr (by simpa using rightWhole 0 (by simpa using none))
        | div =>
            obtain ⟨nonzero, quotient⟩ := Operator.rational?_div_eq_some_iff.mp result
            obtain ⟨actualNonzero, -⟩ := Operator.rational?_div_eq_some_iff.mp computed
            have none := (div_eq_zero_iff.mp quotient).resolve_right nonzero
            have actualNone : leftActual = 0 := by simpa using leftWhole 0 (by simpa using none)
            exact Operator.rational?_div_eq_some_iff.mpr
              ⟨actualNonzero, by rw [actualNone, zero_div]⟩
      have small : |(0 : ℚ)| ≤ 2 ^ 64 := by norm_num
      rw [Expression.value, ← rounded_zero]
      exact Operator.apply_standsFor leftStands rightStands zero small

/-- Two cards have an exact value, since no card is zero. -/
theorem OfCards.rational?_ne_none (cards : expression.OfCards) (few : expression.size ≤ 2) :
    expression.rational? ≠ none := by
  cases expression with
  | literal numeral => exact Option.some_ne_none _
  | apply operator left right =>
      have leftPositive := left.size_pos
      have rightPositive := right.size_pos
      rw [size_apply] at few
      obtain ⟨leftNumber, -, -, -, leftExact⟩ := cards.of_left.rational?_of_size_eq_one (by omega)
      obtain ⟨rightNumber, lower, -, -, rightExact⟩ :=
        cards.of_right.rational?_of_size_eq_one (by omega)
      intro undefined
      rcases rational?_apply_eq_none_iff.mp undefined with none | none | ⟨-, zero, -⟩
      · rw [leftExact] at none
        cases none
      · rw [rightExact] at none
        cases none
      · exact cards.of_right.ne_zero_of_size_eq_one (by omega) zero rfl

/-- It takes three cards to divide by zero: one to divide and two to make the zero. -/
theorem OfCards.three_le_size (cards : expression.OfCards) (undefined : expression.rational? = none) :
    3 ≤ expression.size := by
  by_contra few
  exact cards.rational?_ne_none (by omega) undefined

/-- A card by itself stands for a number other than zero. -/
theorem OfCards.exists_standsFor_ne_zero (cards : expression.OfCards) (single : expression.size = 1) :
    ∃ number, expression.value.StandsFor number ∧ number ≠ 0 := by
  obtain ⟨number, -, -, -, exact⟩ := cards.rational?_of_size_eq_one single
  exact ⟨number, cards.standsFor_of_size_eq_one single exact,
    cards.ne_zero_of_size_eq_one single exact⟩

/-- A card divided by zero is an infinity. -/
theorem OfCards.exists_infinity (cards : expression.OfCards) (three : expression.size = 3)
    (undefined : expression.rational? = none) : ∃ negative, expression.value = infinity negative := by
  cases expression with
  | literal numeral => cases three
  | apply operator left right =>
      have leftPositive := left.size_pos
      have rightPositive := right.size_pos
      rw [size_apply] at three
      rcases rational?_apply_eq_none_iff.mp undefined with
        none | none | ⟨rfl, zero, leftValue, leftExact⟩
      · exact absurd none (cards.of_left.rational?_ne_none (by omega))
      · exact absurd none (cards.of_right.rational?_ne_none (by omega))
      · have two : right.size ≠ 1 := fun single =>
          cards.of_right.ne_zero_of_size_eq_one single zero rfl
        have leftStands := cards.of_left.standsFor_of_size_eq_one (by omega) leftExact
        have rightStands := cards.of_right.standsFor_zero (by omega) zero
        have nonzero := cards.of_left.ne_zero_of_size_eq_one (by omega) leftExact
        exact (leftStands.div_zero rightStands).resolve_left fun nothing => nonzero nothing.2

/-- Four cards without an exact value come to no finite number, or to zero. -/
theorem OfCards.not_isFinite_or_standsFor_zero (cards : expression.OfCards)
    (four : expression.size = 4) (undefined : expression.rational? = none) :
    expression.value.isFinite = false ∨ expression.value.StandsFor 0 := by
  cases expression with
  | literal numeral => cases four
  | apply operator left right =>
      have leftPositive := left.size_pos
      have rightPositive := right.size_pos
      rw [size_apply] at four
      rw [Expression.value]
      rcases rational?_apply_eq_none_iff.mp undefined with
        none | none | ⟨rfl, zero, leftValue, leftExact⟩
      · have many := cards.of_left.three_le_size none
        obtain ⟨negative, same⟩ := cards.of_left.exists_infinity (by omega) none
        obtain ⟨number, stands, nonzero⟩ := cards.of_right.exists_standsFor_ne_zero (by omega)
        rw [same]
        exact .inl (Operator.apply_infinity_left negative stands nonzero)
      · have many := cards.of_right.three_le_size none
        obtain ⟨negative, same⟩ := cards.of_right.exists_infinity (by omega) none
        obtain ⟨number, stands, nonzero⟩ := cards.of_left.exists_standsFor_ne_zero (by omega)
        rw [same]
        exact (Operator.apply_infinity_right negative stands nonzero).imp_right And.right
      · obtain ⟨leftActual, leftStands, -⟩ := cards.of_left.near (by omega) leftExact
        have rightStands := cards.of_right.standsFor_zero (by omega) zero
        left
        rcases leftStands.div_zero rightStands with ⟨same, -⟩ | ⟨negative, same⟩
        · rw [Operator.apply, same]
          rfl
        · rw [Operator.apply, same]
          rfl

end Expression

end FourCards
