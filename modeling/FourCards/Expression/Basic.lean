/-
This file defines numerals and expressions, their values and how they are written, and the reasons for
which a text is no expression.
-/

import FourCards.Operator
import FourCards.Text.Digits

namespace FourCards

/-- The digits before the point and those after it; without a point there are none after. -/
structure Numeral where
  whole : List Char
  decimals : List Char
deriving DecidableEq

namespace Numeral

def ofNat (value : Nat) : Numeral :=
  ⟨Nat.toDigits 10 value, []⟩

def value (numeral : Numeral) : Binary64 :=
  Binary64.ofDecimal (Text.numberOf (numeral.whole ++ numeral.decimals)) numeral.decimals.length

def write (numeral : Numeral) : List Char :=
  if numeral.decimals = [] then numeral.whole
  else numeral.whole ++ '.' :: numeral.decimals

theorem valueOfNat (value : Nat) : (ofNat value).value = Binary64.ofNat value := by
  simp [Numeral.value, ofNat, Text.numberOfToDigits, Binary64.ofDecimalWhole]

end Numeral

inductive Expression where
  | literal (numeral : Numeral)
  | apply (operator : Operator) (left right : Expression)
deriving DecidableEq

namespace Expression

def value : Expression → Binary64
  | literal numeral => numeral.value
  | apply operator left right => operator.apply left.value right.value

/-- Writes an expression as an operand: in parentheses unless it is a numeral. -/
def writeOperand : Expression → List Char
  | literal numeral => numeral.write
  | apply operator left right =>
      '(' :: (left.writeOperand ++ operator.symbol :: right.writeOperand) ++ [')']

def write : Expression → List Char
  | literal numeral => numeral.write
  | apply operator left right => left.writeOperand ++ operator.symbol :: right.writeOperand

def text (expression : Expression) : String :=
  String.ofList expression.write

end Expression

/-- Positions count the characters before the place, without ASCII whitespace. -/
inductive SyntaxError where
  | unexpectedEnd
  | unexpectedCharacter (found : Char) (position : Nat)
  | mismatchedParentheses (position : Nat)
  | trailingInput (position : Nat)
  | invalidNumber (literal : String)
  | nestingTooDeep (limit : Nat)
deriving DecidableEq

def SyntaxError.message : SyntaxError → String
  | unexpectedEnd => "Unexpected end of expression"
  | unexpectedCharacter found position =>
      "Unexpected character '" ++ String.singleton found ++ "' at position " ++ position.repr
  | mismatchedParentheses position => "Mismatched parentheses at position " ++ position.repr
  | trailingInput position =>
      "Unexpected character at end of expression (position " ++ position.repr ++ ")"
  | invalidNumber literal => "Invalid number literal: " ++ literal
  | nestingTooDeep limit => "Parentheses nested deeper than " ++ limit.repr ++ " levels"

end FourCards
