/-
This file defines the verdicts on an answer and how the player is told of them.
-/

import FourCards.Binary64.Decimal
import FourCards.Expression.Basic
import FourCards.Hand.Basic

namespace FourCards

inductive Outcome where
  | emptyInput
  | wrongNumbers (expected : List Nat)
  | syntaxInvalid (cause : SyntaxError)
  | nonFiniteResult (value : Binary64)
  | numericResult (value target : Binary64) (matchesTarget : Bool)
deriving DecidableEq

namespace Outcome

def isSuccess : Outcome → Bool
  | numericResult _ _ matchesTarget => matchesTarget
  | _ => false

def title : Outcome → String
  | emptyInput | syntaxInvalid _ | nonFiniteResult _ => "Error"
  | wrongNumbers _ => "Invalid Expression"
  | numericResult _ _ true => "Success"
  | numericResult _ _ false => "Incorrect"

/-- A success tells the target and not the value, which may miss it a little. -/
def message : Outcome → String
  | emptyInput => "Please enter an arithmetic expression."
  | wrongNumbers expected =>
      "Your expression must use exactly these four numbers: " ++ listText expected
  | syntaxInvalid _ | nonFiniteResult _ => "Invalid mathematical expression."
  | numericResult _ target true => "Correct! Your expression evaluates to " ++ target.text ++ "."
  | numericResult value _ false =>
      "Your expression evaluates to " ++ value.text ++ ". Try again."

def line (outcome : Outcome) : String :=
  outcome.title ++ ": " ++ outcome.message

end Outcome

end FourCards
