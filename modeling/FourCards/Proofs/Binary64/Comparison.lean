/-
This file proves that equal finite numbers are no distance apart.
-/

import FourCards.Game.Values
import Mathlib.Tactic

namespace FourCards

namespace Binary64

/-- Only a finite number equals a finite one. -/
theorem isFinite_of_equals {value target : Binary64} (same : value.equals target = true)
    (finite : target.isFinite = true) : value.isFinite = true := by
  cases target with
  | finite => cases value <;> first | rfl | cases same
  | nan => cases finite
  | infinity => cases finite

/-- Zero is rounded to a zero of the sign that is asked for. -/
theorem round_zero (negative : Bool) : round negative 0 1 = finite negative 0 representableZero := by
  have exact : roundSteps 0 1 = 0 := roundStepsExact representableZero Nat.one_pos
  have small : roundSteps 0 1 < overflowSteps := by
    rw [exact, overflowSteps]
    exact Nat.two_pow_pos 2098
  rw [round, dif_pos small]
  exact finiteCongr exact

/-- The other sign makes the opposite number. -/
theorem signed_not (negative : Bool) (magnitude : Nat) :
    signed (!negative) magnitude = -signed negative magnitude := by
  cases negative <;> simp [signed]

/-- The distance of equal finite numbers is the positive zero, whatever their signs. -/
theorem abs_sub_of_equals {value target : Binary64} (same : value.equals target = true)
    (finite : target.isFinite = true) : (value.sub target).abs = zero := by
  cases target with
  | nan => cases finite
  | infinity => cases finite
  | finite targetSign targetSteps targetProof =>
      cases value with
      | nan => cases same
      | infinity => cases same
      | finite valueSign valueSteps valueProof =>
          have equal : signed valueSign valueSteps = signed targetSign targetSteps := by
            simpa [equals] using same
          have cancels : signed valueSign valueSteps + signed (!targetSign) targetSteps = 0 := by
            rw [signed_not, equal, Int.add_right_neg]
          simp only [sub, negate, add, cancels, Int.natAbs_zero, round_zero]
          rfl

end Binary64

/-- A number equal to a finite target is accepted under every positive tolerance. -/
theorem Settings.accepts_of_equals {settings : Settings} {value : Binary64}
    (same : value.equals settings.target = true) (finite : settings.target.isFinite = true)
    (positive : Binary64.zero.less settings.tolerance = true) : settings.accepts value = true := by
  rw [accepts, Binary64.abs_sub_of_equals same finite, positive]

end FourCards
