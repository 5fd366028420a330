/-
This file writes a binary floating-point number with the fewest decimal digits that read back
as the same number, always positionally.
-/

import FourCards.Binary64.Arithmetic

namespace FourCards

/-- The decimal `digits * 10 ^ scale`, counted in units of `10 ^ -1074`. -/
structure Decimal where
  digits : Nat
  scale : Nat

namespace Decimal

/-- The units of `10 ^ -1074` in one step of `2 ^ -1074`. -/
def unitsInStep : Nat := 5 ^ 1074

theorem unitsInStepPos : 0 < unitsInStep := by
  decide +kernel

def units (decimal : Decimal) : Nat :=
  decimal.digits * 10 ^ decimal.scale

/-- The steps that the decimal is read as. -/
def steps (decimal : Decimal) : Nat :=
  Binary64.roundSteps decimal.units unitsInStep

/-- The nearest decimal on the coarsest grid that has one which reads as `steps`; of two
equally near the larger. -/
def shortestBelow (steps : Nat) : Nat → Decimal
  | 0 => ⟨steps * unitsInStep, 0⟩
  | scale + 1 =>
      let exact := steps * unitsInStep
      let lower : Decimal := ⟨exact / 10 ^ (scale + 1), scale + 1⟩
      let upper : Decimal := ⟨exact / 10 ^ (scale + 1) + 1, scale + 1⟩
      if lower.steps = steps then
        if upper.steps = steps ∧ upper.units - exact ≤ exact - lower.units then upper else lower
      else if upper.steps = steps then upper
      else shortestBelow steps scale

def shortest (steps : Nat) : Decimal :=
  shortestBelow steps (Nat.toDigits 10 (steps * unitsInStep)).length

theorem exactSteps {steps : Nat} (representable : Binary64.Representable steps) :
    (Decimal.mk (steps * unitsInStep) 0).steps = steps := by
  simp only [Decimal.steps, units, Nat.pow_zero, Nat.mul_one]
  exact Binary64.roundStepsExact representable unitsInStepPos

theorem shortestBelowSteps {steps : Nat} (representable : Binary64.Representable steps)
    (scale : Nat) : (shortestBelow steps scale).steps = steps := by
  induction scale with
  | zero => exact exactSteps representable
  | succ scale inductionHypothesis =>
      simp only [shortestBelow]
      split
      · rename_i lowerReads
        split
        · rename_i upperReads
          exact upperReads.1
        · exact lowerReads
      · split
        · rename_i upperReads
          exact upperReads
        · exact inductionHypothesis

/-- What is written reads back. -/
theorem shortestSteps {steps : Nat} (representable : Binary64.Representable steps) :
    (shortest steps).steps = steps :=
  shortestBelowSteps representable _

/-- Writes the digits with their point, if it falls inside or before them. -/
def write (decimal : Decimal) : List Char :=
  let digits := Nat.toDigits 10 decimal.digits
  if 1074 ≤ decimal.scale then
    digits ++ List.replicate (decimal.scale - 1074) '0'
  else
    let places := 1074 - decimal.scale
    let padded := List.replicate (places + 1 - digits.length) '0' ++ digits
    padded.take (padded.length - places) ++ '.' :: padded.drop (padded.length - places)

end Decimal

namespace Binary64

def writeMagnitude (steps : Nat) : List Char :=
  if steps = 0 then ['0'] else (Decimal.shortest steps).write

def text : Binary64 → String
  | nan => "NaN"
  | infinity false => "inf"
  | infinity true => "-inf"
  | finite false steps _ => String.ofList (writeMagnitude steps)
  | finite true steps _ => String.ofList ('-' :: writeMagnitude steps)

end Binary64

end FourCards
