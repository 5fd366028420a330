/-
This file judges answers and gives hints. An answer is judged by whether anything was written, whether
it uses the values of the hand, whether it is an expression, and what it comes to. By the standard
settings this is done for values that may be no hand, too.
-/

import FourCards.Expression.Parser
import FourCards.Game.Outcome
import FourCards.Solver
import FourCards.Usage

namespace FourCards

/-- What a hand has to make and how near an answer has to come. -/
structure Settings where
  target : Binary64
  tolerance : Binary64
deriving DecidableEq

namespace Settings

def standard : Settings where
  target := Binary64.ofNat 24
  tolerance := Binary64.ofDecimal 1 3

/-- An answer may miss the target by less than the tolerance; the search allows no such miss. -/
def accepts (settings : Settings) (value : Binary64) : Bool :=
  (value.sub settings.target).abs.less settings.tolerance

end Settings

/-- A text is blank if it holds only ASCII whitespace and control characters. -/
def isBlank (text : String) : Bool :=
  text.toList.all fun character =>
    Text.isAsciiWhitespace character || Text.isAsciiControl character

namespace Hand

/-- The first check that fails decides. -/
def verify (hand : Hand) (settings : Settings) (text : String) : Outcome :=
  if isBlank text then .emptyInput
  else
    match hand.checkUsage text with
    | .error error => .wrongNumbers error.expected
    | .ok () =>
        match Expression.evaluate text with
        | .error cause => .syntaxInvalid cause
        | .ok value =>
            if value.isFinite then
              .numericResult value settings.target (settings.accepts value)
            else .nonFiniteResult value

def verifyStandard (hand : Hand) (text : String) : Outcome :=
  hand.verify .standard text

def hintStandard (hand : Hand) : Hint :=
  Solver.hint Settings.standard.target hand

def verifyValues (values : Four Nat) (text : String) : Except HandError Outcome :=
  (ofValues values).map fun hand => hand.verifyStandard text

def hintValues (values : Four Nat) : Except HandError Hint :=
  (ofValues values).map hintStandard

end Hand

end FourCards
