/-
This file lists the candidates that come to 24 but not in binary floating-point numbers, and checks
that these are all that a rounded quotient of two cards leads to.
-/

import FourCards.Proofs.Search.Candidate
import FourCards.Proofs.Exact.Units

namespace FourCards

/-- The values that cards have. -/
def cardValues : List Nat := List.range' 1 13

/-- Cards are worth from one to thirteen. -/
theorem mem_cardValues {number : Nat} : number ∈ cardValues ↔ 1 ≤ number ∧ number ≤ 13 := by
  rw [cardValues, List.mem_range'_1]
  omega

namespace Candidate

def withOperators (first second third : Operator) (shape : Shape) (operands : List (Four Nat)) :
    List Candidate :=
  operands.map fun four => ⟨four, first, second, third, shape⟩

/-- The candidates that rounding makes miss 24 and nothing else does. -/
def missed : List Candidate :=
  withOperators .div .mul .mul .chain [⟨1, 5, 12, 10⟩, ⟨2, 5, 6, 10⟩, ⟨2, 5, 12, 5⟩,
    ⟨2, 10, 12, 10⟩, ⟨4, 5, 3, 10⟩, ⟨4, 5, 6, 5⟩, ⟨4, 10, 6, 10⟩, ⟨4, 10, 12, 5⟩, ⟨8, 5, 3, 5⟩,
    ⟨8, 10, 3, 10⟩, ⟨8, 10, 6, 5⟩] ++
  withOperators .mul .div .mul .nested [⟨12, 1, 5, 10⟩, ⟨6, 2, 5, 10⟩, ⟨12, 2, 5, 5⟩,
    ⟨12, 2, 10, 10⟩, ⟨3, 4, 5, 10⟩, ⟨6, 4, 5, 5⟩, ⟨6, 4, 10, 10⟩, ⟨12, 4, 10, 5⟩, ⟨3, 8, 5, 5⟩,
    ⟨3, 8, 10, 10⟩, ⟨6, 8, 10, 5⟩] ++
  withOperators .div .add .mul .chain [⟨5, 3, 1, 9⟩, ⟨10, 6, 1, 9⟩] ++
  withOperators .add .div .mul .nested [⟨1, 5, 3, 9⟩, ⟨1, 10, 6, 9⟩] ++
  withOperators .sub .div .mul .nested [⟨4, 4, 3, 9⟩, ⟨4, 8, 6, 9⟩, ⟨4, 12, 9, 9⟩,
    ⟨7, 13, 3, 9⟩] ++
  withOperators .div .div .mul .nested [⟨8, 11, 3, 11⟩, ⟨4, 11, 6, 11⟩, ⟨2, 11, 12, 11⟩] ++
  withOperators .div .div .div .pairs [⟨12, 5, 1, 10⟩]

end Candidate

/-- The pair is the right operand inside a nested candidate, and the left one in a chain. -/
def withPair {α β : Type} (nested : Bool) (function : α → α → β) (pair other : α) : β :=
  if nested then function other pair else function pair other

theorem withPair_true {α β : Type} (function : α → α → β) (pair other : α) :
    withPair true function pair other = function other pair := rfl

theorem withPair_false {α β : Type} (function : α → α → β) (pair other : α) :
    withPair false function pair other = function pair other := rfl

/-- The candidate that multiplies by a card what an operator makes of a quotient and a card. -/
def Candidate.ofQuotient (nested : Bool) (operator : Operator) (above below other last : Nat) :
    Candidate :=
  if nested then ⟨⟨other, above, below, last⟩, operator, .div, .mul, .nested⟩
  else ⟨⟨above, below, other, last⟩, .div, operator, .mul, .chain⟩

namespace Operator

open Binary64

/-- A fraction of the result, where that is positive. -/
def ratio : Operator → Nat × Nat → Nat × Nat → Nat × Nat
  | add, left, right => (left.1 * right.2 + right.1 * left.2, left.2 * right.2)
  | sub, left, right => (left.1 * right.2 - right.1 * left.2, left.2 * right.2)
  | mul, left, right => (left.1 * right.1, left.2 * right.2)
  | div, left, right => (left.1 * right.2, left.2 * right.1)

/-- What the operator makes of a quotient and a card, in units. -/
def tripleUnits? (nested : Bool) (operator : Operator) (above below other : Nat) : Option Nat :=
  (quotientUnits? above below).bind fun pair =>
    withPair nested operator.units? pair (other * unitsInOne)

/-- If a quotient and a card make a whole number other than 7, they do so in units; if they make 24
with another factor, they do so in units as well unless the candidate is listed. -/
def TripleSettled (nested : Bool) (operator : Operator) (above below other : Nat) : Prop :=
  let ratio := withPair nested operator.ratio (above, below) (other, 1)
  let triple := tripleUnits? nested operator above below other
  let last := 24 * ratio.2 / ratio.1
  (ratio.1 = 0 ∨ ¬ ratio.2 ∣ ratio.1 ∨ ratio.1 = 7 * ratio.2 ∨
      triple = some (ratio.1 / ratio.2 * unitsInOne)) ∧
    (last * ratio.1 ≠ 24 * ratio.2 ∨ 13 < last ∨
      triple.bind (fun units => mul.units? units (last * unitsInOne)) = some (24 * unitsInOne) ∨
        Candidate.ofQuotient nested operator above below other last ∈ Candidate.missed)

instance (nested : Bool) (operator : Operator) (above below other : Nat) :
    Decidable (TripleSettled nested operator above below other) :=
  inferInstanceAs (Decidable (_ ∧ _))

/-- All fractions of cards that are not counted in eighths are settled with a third card. -/
theorem tripleSettled_of_mem_cardValues :
    ∀ above ∈ cardValues, ∀ below ∈ cardValues, ¬ below ∣ 8 * above → ∀ other ∈ cardValues,
      ∀ operator ∈ Operator.all, ∀ nested : Bool,
        TripleSettled nested operator above below other := by
  decide +kernel

/-- If the product of a quotient and another one, or of a quotient and a whole number, is 24, it is so
in units. If the second is 24 times the first, dividing by the first gives 24 in units as well unless
the candidate is listed. -/
def QuotientsSettled (above below otherBelow : Nat) : Prop :=
  let factor := 24 * below * otherBelow / above
  let dividend := 24 * above * otherBelow / below
  (factor * above ≠ 24 * below * otherBelow ∨ otherBelow ≠ 1 ∧ 13 < factor ∨
      ((quotientUnits? above below).bind fun left =>
        (quotientUnits? factor otherBelow).bind (mul.units? left)) = some (24 * unitsInOne)) ∧
    (dividend * below ≠ 24 * above * otherBelow ∨ otherBelow ≠ 1 ∧ 13 < dividend ∨
      ((quotientUnits? dividend otherBelow).bind fun left =>
        (quotientUnits? above below).bind (div.units? left)) = some (24 * unitsInOne) ∨
        otherBelow ≠ 1 ∧ (⟨⟨dividend, otherBelow, above, below⟩, .div, .div, .div, .pairs⟩ : Candidate) ∈
          Candidate.missed)

instance (above below otherBelow : Nat) : Decidable (QuotientsSettled above below otherBelow) :=
  inferInstanceAs (Decidable (_ ∧ _))

/-- All fractions of cards that are not counted in eighths are settled with another fraction. -/
theorem quotientsSettled_of_mem_cardValues :
    ∀ above ∈ cardValues, ∀ below ∈ cardValues, ¬ below ∣ 8 * above → ∀ otherBelow ∈ cardValues,
      QuotientsSettled above below otherBelow := by
  decide +kernel

/-- Dividing 24 by a card and multiplying by it gives 24 in units. -/
theorem mul_quotientUnits? : ∀ last ∈ cardValues,
    ((quotientUnits? 24 last).bind fun units => mul.units? units (last * unitsInOne)) =
      some (24 * unitsInOne) := by
  decide +kernel

end Operator

end FourCards
