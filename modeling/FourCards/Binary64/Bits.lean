/-
This file lays binary floating-point numbers out in sixty-four bits: a sign, eleven bits of
exponent and fifty-two of fraction.
-/

import FourCards.Binary64.Basic
import FourCards.Binary64.Rounding

namespace FourCards.Binary64

theorem representableFraction (fraction : Nat) :
    Representable (fraction % 2 ^ 52) :=
  ⟨fraction % 2 ^ 52, 0,
    Nat.lt_trans (Nat.mod_lt _ (by decide)) (by decide), by decide, by simp⟩

theorem representableNormal (exponent fraction : Nat) (inRange : exponent ≤ 2046) :
    Representable ((2 ^ 52 + fraction % 2 ^ 52) * 2 ^ (exponent - 1)) := by
  refine ⟨_, _, ?_, Nat.sub_le_sub_right inRange 1, rfl⟩
  have := Nat.mod_lt fraction (show 0 < 2 ^ 52 by decide)
  omega

/-- Reads the bits below the sign. -/
def ofMagnitudeBits (negative : Bool) (bits : Nat) : Binary64 :=
  let exponent := bits / 2 ^ 52
  if exponent = 0 then
    finite negative (bits % 2 ^ 52) (representableFraction bits)
  else if inRange : exponent ≤ 2046 then
    finite negative ((2 ^ 52 + bits % 2 ^ 52) * 2 ^ (exponent - 1))
      (representableNormal exponent bits inRange)
  else if bits % 2 ^ 52 = 0 then infinity negative
  else nan

def ofBits (bits : UInt64) : Binary64 :=
  ofMagnitudeBits (decide (2 ^ 63 ≤ bits.toNat)) (bits.toNat % 2 ^ 63)

/-- The bits below the sign: the exponent field counts the surplus digits of the steps. -/
def magnitudeBits : Binary64 → Nat
  | nan => 2047 * 2 ^ 52 + 2 ^ 51
  | infinity _ => 2047 * 2 ^ 52
  | finite _ steps _ =>
      let surplus := surplusDigits steps
      surplus * 2 ^ 52 + steps / 2 ^ surplus

def isNegative : Binary64 → Bool
  | nan => false
  | infinity negative => negative
  | finite negative .. => negative

def toBits (value : Binary64) : UInt64 :=
  UInt64.ofNat ((if value.isNegative then 2 ^ 63 else 0) + value.magnitudeBits)

theorem ofMagnitudeBitsSum (negative : Bool) {surplus significand : Nat}
    (upper : significand < 2 ^ 53) (lower : 0 < surplus → 2 ^ 52 ≤ significand)
    (bounded : surplus ≤ 2045) (representable : Representable (significand * 2 ^ surplus)) :
    ofMagnitudeBits negative (surplus * 2 ^ 52 + significand) =
      finite negative (significand * 2 ^ surplus) representable := by
  by_cases zero : (surplus * 2 ^ 52 + significand) / 2 ^ 52 = 0
  · have : surplus = 0 := by omega
    subst this
    simp only [ofMagnitudeBits, if_pos zero]
    exact finiteCongr (by omega)
  · have inRange : (surplus * 2 ^ 52 + significand) / 2 ^ 52 ≤ 2046 := by omega
    simp only [ofMagnitudeBits, if_neg zero, dif_pos inRange]
    refine finiteCongr ?_
    rcases Nat.eq_zero_or_pos surplus with rfl | positive
    · have exponent : (0 * 2 ^ 52 + significand) / 2 ^ 52 - 1 = 0 := by omega
      rw [exponent]
      omega
    · have large := lower positive
      have exponent : (surplus * 2 ^ 52 + significand) / 2 ^ 52 - 1 = surplus := by
        omega
      have whole : 2 ^ 52 + (surplus * 2 ^ 52 + significand) % 2 ^ 52 =
          significand := by
        omega
      rw [exponent, whole]

theorem ofMagnitudeBitsMagnitudeBits (value : Binary64) :
    ofMagnitudeBits value.isNegative value.magnitudeBits = value := by
  cases value with
  | nan => decide
  | infinity negative => cases negative <;> decide
  | finite negative steps representable =>
      have restored := divMulSurplus representable
      exact (ofMagnitudeBitsSum negative (divSurplusUpper steps) (divSurplusLower steps)
        (surplusDigitsBound representable) (by rwa [restored])).trans (finiteCongr restored)

theorem magnitudeBitsLt (value : Binary64) : value.magnitudeBits < 2 ^ 63 := by
  cases value with
  | nan => decide
  | infinity negative => decide +revert
  | finite negative steps representable =>
      have upper := divSurplusUpper steps
      have bounded := surplusDigitsBound representable
      simp only [magnitudeBits]
      omega

theorem ofBitsToBits (value : Binary64) : ofBits value.toBits = value := by
  have bounded := magnitudeBitsLt value
  have restored := ofMagnitudeBitsMagnitudeBits value
  simp only [ofBits, toBits, UInt64.toNat_ofNat']
  generalize value.magnitudeBits = magnitude at bounded restored ⊢
  cases sign : value.isNegative with
  | false =>
      have small : ((if false = true then 2 ^ 63 else 0) + magnitude) % 2 ^ 64 = magnitude := by
        simp only [Bool.false_eq_true, if_false]
        omega
      rw [small, Nat.mod_eq_of_lt bounded, decide_eq_false (by omega), ← sign]
      exact restored
  | true =>
      have large : ((if true = true then 2 ^ 63 else 0) + magnitude) % 2 ^ 64 =
          2 ^ 63 + magnitude := by
        simp only [if_true]
        omega
      have below : (2 ^ 63 + magnitude) % 2 ^ 63 = magnitude := by omega
      rw [large, below, decide_eq_true (by omega), ← sign]
      exact restored

end FourCards.Binary64
