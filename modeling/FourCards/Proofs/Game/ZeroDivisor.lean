/-
This file proves that a division by zero shows in the verdict unless something is divided by an
infinity, which may make it vanish.
-/

import FourCards.Proofs.Game.Verification

namespace FourCards

namespace Binary64

variable {left right : Binary64}

/-- A sum is not finite if one of its terms is not. -/
theorem not_isFinite_add (notFinite : left.isFinite = false ∨ right.isFinite = false) :
    (left.add right).isFinite = false := by
  cases left with
  | nan => cases right <;> rfl
  | infinity =>
      cases right with
      | infinity =>
          simp only [add]
          split <;> rfl
      | nan => rfl
      | finite => rfl
  | finite =>
      cases right with
      | finite => rcases notFinite with notFinite | notFinite <;> cases notFinite
      | nan => rfl
      | infinity => rfl

/-- Negation does not make a number finite or infinite. -/
theorem isFinite_negate (value : Binary64) : value.negate.isFinite = value.isFinite := by
  cases value <;> rfl

/-- A difference is not finite if one of its terms is not. -/
theorem not_isFinite_sub (notFinite : left.isFinite = false ∨ right.isFinite = false) :
    (left.sub right).isFinite = false := by
  rw [← isFinite_negate right] at notFinite
  exact not_isFinite_add notFinite

/-- A product is not finite if one of its factors is not. -/
theorem not_isFinite_mul (notFinite : left.isFinite = false ∨ right.isFinite = false) :
    (left.mul right).isFinite = false := by
  cases left with
  | nan => cases right <;> rfl
  | infinity =>
      cases right with
      | finite =>
          simp only [mul]
          split <;> rfl
      | nan => rfl
      | infinity => rfl
  | finite =>
      cases right with
      | finite => rcases notFinite with notFinite | notFinite <;> cases notFinite
      | nan => rfl
      | infinity =>
          simp only [mul]
          split <;> rfl

/-- A quotient is not finite if what is divided is not. -/
theorem not_isFinite_div_left (notFinite : left.isFinite = false) :
    (left.div right).isFinite = false := by
  cases left with
  | finite => cases notFinite
  | nan => cases right <;> rfl
  | infinity => cases right <;> rfl

/-- A quotient by no number is none. -/
theorem not_isFinite_div_nan : (left.div nan).isFinite = false := by
  cases left <;> rfl

/-- A quotient by zero is not finite. -/
theorem not_isFinite_div_zero (zero : right.equals zero = true) :
    (left.div right).isFinite = false := by
  cases right with
  | nan => cases zero
  | infinity => cases zero
  | finite negative steps =>
      have none : steps = 0 := by
        cases negative <;> simpa [equals, Binary64.zero, signed] using zero
      cases left with
      | finite =>
          simp only [div, if_pos none]
          split <;> rfl
      | nan => rfl
      | infinity => rfl

end Binary64

open Binary64

/-- What is not finite stays so under every operator, unless it is an infinity that divides. -/
theorem Operator.not_isFinite_apply {operator : Operator} {left right : Binary64}
    (notFinite : left.isFinite = false ∨ right.isFinite = false)
    (notDividing : operator = div → ∀ negative, right ≠ infinity negative) :
    (operator.apply left right).isFinite = false := by
  cases operator with
  | add => exact not_isFinite_add notFinite
  | sub => exact not_isFinite_sub notFinite
  | mul => exact not_isFinite_mul notFinite
  | div =>
      rcases notFinite with notFinite | notFinite
      · exact not_isFinite_div_left notFinite
      · cases right with
        | finite => cases notFinite
        | nan => exact not_isFinite_div_nan
        | infinity negative => exact absurd rfl (notDividing rfl negative)

namespace Expression

/-- The values that the evaluation divides by. -/
def divisors : Expression → List Binary64
  | literal _ => []
  | apply operator left right =>
      left.divisors ++ right.divisors ++ if operator = .div then [right.value] else []

/-- An expression divides by what its operands divide by and, if it is a quotient, by its right operand.
-/
theorem mem_divisors_apply {operator : Operator} {left right : Expression} {divisor : Binary64} :
    divisor ∈ (apply operator left right).divisors ↔
      divisor ∈ left.divisors ∨ divisor ∈ right.divisors ∨
        operator = .div ∧ divisor = right.value := by
  simp only [divisors, List.mem_append, or_assoc]
  split <;> simp_all

/-- After a division by zero, nothing but a division by an infinity brings back a finite number. -/
theorem not_isFinite_of_zero_mem_divisors {expression : Expression}
    (divided : ∃ divisor ∈ expression.divisors, divisor.equals zero = true)
    (noInfinity : ∀ negative, infinity negative ∉ expression.divisors) :
    expression.value.isFinite = false := by
  induction expression with
  | literal =>
      obtain ⟨divisor, inside, -⟩ := divided
      cases inside
  | apply operator left right leftHypothesis rightHypothesis =>
      simp only [mem_divisors_apply, not_or] at noInfinity
      have notDividing : operator = .div → ∀ negative, right.value ≠ infinity negative :=
        fun division negative same => (noInfinity negative).2.2 ⟨division, same.symm⟩
      obtain ⟨divisor, inside, isZero⟩ := divided
      -- Either an operand is not finite already, by hypothesis, or this very division makes it so.
      rcases mem_divisors_apply.mp inside with inLeft | inRight | ⟨rfl, rfl⟩
      · refine Operator.not_isFinite_apply (.inl ?_) notDividing
        exact leftHypothesis ⟨divisor, inLeft, isZero⟩ fun negative => (noInfinity negative).1
      · refine Operator.not_isFinite_apply (.inr ?_) notDividing
        exact rightHypothesis ⟨divisor, inRight, isZero⟩ fun negative => (noInfinity negative).2.1
      · exact not_isFinite_div_zero isZero

end Expression

namespace Hand

/-- An answer that passes the checks and divides by zero is refused as not finite, whatever the target,
unless it divides by an infinity as well. -/
theorem verify_of_zero_mem_divisors (hand : Hand) (settings : Settings) {text : String}
    {tree : Expression} (notBlank : isBlank text = false) (usage : hand.checkUsage text = .ok ())
    (parsed : Expression.ofText text = .ok tree)
    (divided : ∃ divisor ∈ tree.divisors, divisor.equals zero = true)
    (noInfinity : ∀ negative, infinity negative ∉ tree.divisors) :
    hand.verify settings text = .nonFiniteResult tree.value := by
  have evaluated : Expression.evaluate text = .ok tree.value := by
    rw [Expression.evaluate, parsed, Except.map]
  have notFinite := Expression.not_isFinite_of_zero_mem_divisors divided noInfinity
  rw [hand.verify_of_evaluate settings notBlank (checkUsageOk.mp usage) evaluated, notFinite]
  rfl

/-- A number is added to a quotient whose divisor is zero. -/
theorem verify_of_zero_mem_divisors_sum :
    (⟨⟨1, 2, 3, 3⟩, by decide⟩ : Hand).verify ⟨zero, Binary64.ofNat 1⟩ "2 + 1/(3-3)" =
      .nonFiniteResult (Expression.apply .add (.literal (.ofNat 2))
        (.apply .div (.literal (.ofNat 1))
          (.apply .sub (.literal (.ofNat 3)) (.literal (.ofNat 3))))).value :=
  verify_of_zero_mem_divisors _ _ (by decide +kernel) (by decide +kernel) (by decide +kernel)
    (by decide +kernel) (by decide +kernel)

/-- One divided by an infinity is zero, and the division by zero that made the infinity goes unseen:
such an answer is a success where zero is the target. -/
theorem verify_infinite_divisor :
    ∃ tree, Expression.ofText "1/(1/(3-3))" = .ok tree ∧
      (∃ divisor ∈ tree.divisors, divisor.equals zero = true) ∧
        (⟨⟨1, 1, 3, 3⟩, by decide⟩ : Hand).verify ⟨zero, Binary64.ofDecimal 1 3⟩ "1/(1/(3-3))" =
          .numericResult zero zero true :=
  ⟨.apply .div (.literal (.ofNat 1)) (.apply .div (.literal (.ofNat 1))
    (.apply .sub (.literal (.ofNat 3)) (.literal (.ofNat 3)))), by decide +kernel, by decide +kernel,
    by decide +kernel⟩

end Hand

end FourCards
