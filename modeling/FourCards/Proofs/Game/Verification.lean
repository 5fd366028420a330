/-
This file says when an answer is evaluated and what the verdict on it is then.
-/

import FourCards.Game.Values
import Mathlib.Tactic

namespace FourCards

/-- The number that the answer comes to, if it was evaluated at all. -/
def Outcome.value? : Outcome → Option Binary64
  | nonFiniteResult value => some value
  | numericResult value _ _ => some value
  | _ => none

namespace Hand

variable (hand : Hand) (settings : Settings)

/-- An answer that passes the checks is judged by its value alone. -/
theorem verify_of_evaluate {text : String} {value : Binary64} (notBlank : isBlank text = false)
    (usage : (Text.numbers text.toList).Perm hand.toList)
    (evaluated : Expression.evaluate text = .ok value) :
    hand.verify settings text =
      if value.isFinite then .numericResult value settings.target (settings.accepts value)
      else .nonFiniteResult value := by
  simp only [verify, notBlank, checkUsageOk.mpr usage, evaluated, Bool.false_eq_true, if_false]

/-- An answer is evaluated exactly if it passes the checks. -/
theorem value?_verify_eq_some_iff {text : String} {value : Binary64} :
    (hand.verify settings text).value? = some value ↔
      isBlank text = false ∧ (Text.numbers text.toList).Perm hand.toList ∧
        Expression.evaluate text = .ok value := by
  constructor
  · intro evaluated
    simp only [verify] at evaluated
    split at evaluated
    · cases evaluated
    · rename_i notBlank
      split at evaluated
      · cases evaluated
      · rename_i usage
        split at evaluated
        · cases evaluated
        · rename_i found result
          have same : found = value := by
            split at evaluated <;> exact Option.some.inj evaluated
          exact ⟨by simpa using notBlank, checkUsageOk.mp usage, same ▸ result⟩
  · rintro ⟨notBlank, usage, evaluated⟩
    rw [hand.verify_of_evaluate settings notBlank usage evaluated]
    split <;> rfl

end Hand

end FourCards
