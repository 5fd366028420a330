/-
This file searches for expressions that make a target out of the values of a hand.
-/

import FourCards.Candidate
import FourCards.Expression.Parser
import FourCards.Hand.Basic

namespace FourCards

/-- What a player is shown who asks for help. -/
inductive Hint where
  | found (expression : String)
  | noSolution
deriving DecidableEq

namespace Hint

def ofSolution? : Option String → Hint
  | some expression => found expression
  | none => noSolution

def expression? : Hint → Option String
  | found expression => some expression
  | noSolution => none

def isFound : Hint → Bool
  | found _ => true
  | noSolution => false

def text : Hint → String
  | found expression => expression
  | noSolution => "No solution found"

end Hint

namespace Solver

/-- Every candidate of every order of the values, the order varying slowest. -/
def candidates (hand : Hand) : List Candidate :=
  hand.values.arrangements.flatMap Candidate.enumerate

/-- A text makes the target if it reads as an expression of exactly that value. -/
def makes (target : Binary64) (text : String) : Bool :=
  match Expression.evaluate text with
  | .ok value => value.equals target
  | .error _ => false

def solve (target : Binary64) (hand : Hand) : Option String :=
  ((candidates hand).map Candidate.text).find? (makes target)

/-- Equal values in different slots give equal texts, of which the first is kept. -/
def solutions (target : Binary64) (hand : Hand) : List String :=
  (((candidates hand).map Candidate.text).filter (makes target)).eraseDups

def hint (target : Binary64) (hand : Hand) : Hint :=
  Hint.ofSolution? (solve target hand)

end Solver

end FourCards
