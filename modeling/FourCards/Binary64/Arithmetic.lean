/-
This file defines the four operations on binary floating-point numbers: each is exact on whole
numbers of steps and is rounded once.
-/

import FourCards.Binary64.Rounding

namespace FourCards.Binary64

/-- A sum that is exactly zero is negative only if both terms are. -/
def add : Binary64 → Binary64 → Binary64
  | nan, _ => nan
  | _, nan => nan
  | infinity leftSign, infinity rightSign =>
      if leftSign = rightSign then infinity leftSign else nan
  | infinity leftSign, finite .. => infinity leftSign
  | finite .., infinity rightSign => infinity rightSign
  | finite leftSign left _, finite rightSign right _ =>
      let total := signed leftSign left + signed rightSign right
      let negative := if total = 0 then leftSign && rightSign else decide (total < 0)
      round negative total.natAbs 1

def sub (left right : Binary64) : Binary64 :=
  left.add right.negate

def mul : Binary64 → Binary64 → Binary64
  | nan, _ => nan
  | _, nan => nan
  | infinity leftSign, infinity rightSign => infinity (leftSign ^^ rightSign)
  | infinity leftSign, finite rightSign right _ =>
      if right = 0 then nan else infinity (leftSign ^^ rightSign)
  | finite leftSign left _, infinity rightSign =>
      if left = 0 then nan else infinity (leftSign ^^ rightSign)
  | finite leftSign left _, finite rightSign right _ =>
      round (leftSign ^^ rightSign) (left * right) stepsInOne

/-- A nonzero number divided by a zero is an infinity. -/
def div : Binary64 → Binary64 → Binary64
  | nan, _ => nan
  | _, nan => nan
  | infinity _, infinity _ => nan
  | infinity leftSign, finite rightSign .. => infinity (leftSign ^^ rightSign)
  | finite leftSign .., infinity rightSign =>
      finite (leftSign ^^ rightSign) 0 representableZero
  | finite leftSign left _, finite rightSign right _ =>
      if right = 0 then
        if left = 0 then nan else infinity (leftSign ^^ rightSign)
      else round (leftSign ^^ rightSign) (left * stepsInOne) right

/-- The number nearest to a whole number. -/
def ofNat (value : Nat) : Binary64 :=
  round false (value * stepsInOne) 1

/-- The number nearest to `digits` with that many decimal places. -/
def ofDecimal (digits places : Nat) : Binary64 :=
  round false (digits * stepsInOne) (10 ^ places)

theorem ofDecimalWhole (digits : Nat) : ofDecimal digits 0 = ofNat digits := rfl

end FourCards.Binary64
