/-
This file defines the four operators, their symbols and what they compute.
-/

import FourCards.Binary64.Arithmetic

namespace FourCards

inductive Operator where
  | add | sub | mul | div
deriving DecidableEq

namespace Operator

def all : List Operator := [add, sub, mul, div]

@[simp]
theorem mem_all (operator : Operator) : operator ∈ all := by
  cases operator <;> decide

def symbol : Operator → Char
  | add => '+'
  | sub => '-'
  | mul => '*'
  | div => '/'

def ofSymbol? (character : Char) : Option Operator :=
  all.find? fun operator => operator.symbol = character

/-- Additive operators bind looser than the others. -/
def isAdditive : Operator → Bool
  | add | sub => true
  | mul | div => false

def apply : Operator → Binary64 → Binary64 → Binary64
  | add => Binary64.add
  | sub => Binary64.sub
  | mul => Binary64.mul
  | div => Binary64.div

theorem ofSymbolSymbol (operator : Operator) : ofSymbol? operator.symbol = some operator := by
  cases operator <;> rfl

theorem symbolOfSymbol {character : Char} {operator : Operator}
    (found : ofSymbol? character = some operator) : operator.symbol = character := by
  simpa using List.find?_some found

end Operator

end FourCards
