/-
This file defines the expressions that the search tries: four operands, three operators and
one of three ways to group them.
-/

import FourCards.Expression.Basic
import FourCards.Four

namespace FourCards

inductive Shape where
  /-- The grouping `(a + b) + (c + d)`. -/
  | pairs
  /-- The grouping `((a + b) + c) + d`. -/
  | chain
  /-- The grouping `(a + (b + c)) + d`. -/
  | nested
deriving DecidableEq

def Shape.all : List Shape := [pairs, chain, nested]

@[simp]
theorem Shape.mem_all (shape : Shape) : shape ∈ all := by
  cases shape <;> decide

structure Candidate where
  operands : Four Nat
  first : Operator
  second : Operator
  third : Operator
  shape : Shape
deriving DecidableEq

namespace Candidate

def expression (candidate : Candidate) : Expression :=
  let ⟨a, b, c, d⟩ := candidate.operands.map fun value => Expression.literal (Numeral.ofNat value)
  match candidate.shape with
  | .pairs =>
      .apply candidate.second (.apply candidate.first a b) (.apply candidate.third c d)
  | .chain =>
      .apply candidate.third (.apply candidate.second (.apply candidate.first a b) c) d
  | .nested =>
      .apply candidate.third (.apply candidate.first a (.apply candidate.second b c)) d

def text (candidate : Candidate) : String :=
  candidate.expression.text

/-- Every choice of operators and shape, the first operator varying slowest. -/
def enumerate (operands : Four Nat) : List Candidate :=
  Operator.all.flatMap fun first =>
    Operator.all.flatMap fun second =>
      Operator.all.flatMap fun third =>
        Shape.all.map fun shape => ⟨operands, first, second, third, shape⟩

theorem mem_enumerate_iff {candidate : Candidate} {operands : Four Nat} :
    candidate ∈ enumerate operands ↔ candidate.operands = operands := by
  simp only [enumerate, List.mem_flatMap, List.mem_map]
  constructor
  · rintro ⟨_, -, _, -, _, -, _, -, rfl⟩
    rfl
  · rintro rfl
    exact ⟨_, Operator.mem_all candidate.first, _, Operator.mem_all candidate.second, _,
      Operator.mem_all candidate.third, _, Shape.mem_all candidate.shape, rfl⟩

theorem enumerateLength (operands : Four Nat) : (enumerate operands).length = 192 := by
  simp only [enumerate, List.length_flatMap, List.length_map]
  rfl

end Candidate

end FourCards
