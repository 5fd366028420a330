/-
This file checks that the numbers written in a text are the values of a hand.
-/

import FourCards.Hand.Basic
import FourCards.Text.Digits

namespace FourCards

/-- The values that were to be used, and the numbers that were found in ascending order. -/
structure UsageError where
  expected : List Nat
  found : List Nat
deriving DecidableEq

def UsageError.message (error : UsageError) : String :=
  "Expression must use exactly these four numbers: " ++ listText error.expected ++
    " (found " ++ listText error.found ++ ")"

namespace Hand

/-- Every value must be written exactly once, in any order. The text need not be an expression:
digits after a point are a number of their own. -/
def checkUsage (hand : Hand) (text : String) : Except UsageError Unit :=
  let found := Text.numbers text.toList
  if found.isPerm hand.toList then .ok ()
  else .error ⟨hand.toList, found.mergeSort⟩

theorem checkUsageOk {hand : Hand} {text : String} :
    hand.checkUsage text = .ok () ↔ (Text.numbers text.toList).Perm hand.toList := by
  simp only [checkUsage, ← List.isPerm_iff]
  split <;> simp_all

end Hand

end FourCards
