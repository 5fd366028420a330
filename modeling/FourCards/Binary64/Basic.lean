/-
This file defines the binary floating-point numbers of sixty-four bits, their signs and
their comparisons.
-/

namespace FourCards

/-- The instance by which powers of whole numbers are written, so that they are the same terms in
files with and without an instance for monoids. -/
@[default_instance 20000]
instance (priority := 20000) powerOfWhole : Pow Nat Nat := instPowNat

namespace Binary64

/-- The magnitudes of finite numbers, counted in steps of `2 ^ -1074`. -/
def Representable (steps : Nat) : Prop :=
  ∃ significand shift : Nat,
    significand < 2 ^ 53 ∧ shift ≤ 2045 ∧ steps = significand * 2 ^ shift

theorem representableZero : Representable 0 :=
  ⟨0, 0, by decide, by decide, rfl⟩

end Binary64

/-- A finite number is a sign and a count of steps of `2 ^ -1074`; zero has both signs. -/
inductive Binary64 where
  | nan
  | infinity (negative : Bool)
  | finite (negative : Bool) (steps : Nat) (representable : Binary64.Representable steps)
deriving DecidableEq

namespace Binary64

theorem finiteCongr {negative : Bool} {left right : Nat} {leftProof : Representable left}
    {rightProof : Representable right} (same : left = right) :
    finite negative left leftProof = finite negative right rightProof := by
  subst same
  rfl

/-- The steps of `2 ^ -1074` in one. -/
def stepsInOne : Nat := 2 ^ 1074

def zero : Binary64 := finite false 0 representableZero

instance : Inhabited Binary64 := ⟨zero⟩

def isFinite : Binary64 → Bool
  | finite .. => true
  | _ => false

/-- A whole number with the given sign. -/
def signed (negative : Bool) (magnitude : Nat) : Int :=
  if negative then -(magnitude : Int) else magnitude

/-- Flips the sign, also of zero and of an infinity. -/
def negate : Binary64 → Binary64
  | nan => nan
  | infinity negative => infinity !negative
  | finite negative steps representable => finite (!negative) steps representable

def abs : Binary64 → Binary64
  | nan => nan
  | infinity _ => infinity false
  | finite _ steps representable => finite false steps representable

/-- Numeric equality: zero equals zero whatever the signs, and `nan` equals nothing. -/
def equals : Binary64 → Binary64 → Bool
  | infinity leftSign, infinity rightSign => leftSign == rightSign
  | finite leftSign left _, finite rightSign right _ =>
      signed leftSign left == signed rightSign right
  | _, _ => false

/-- Numeric order: `nan` is neither below nor above anything. -/
def less : Binary64 → Binary64 → Bool
  | infinity leftSign, infinity rightSign => leftSign && !rightSign
  | infinity leftSign, finite .. => leftSign
  | finite .., infinity rightSign => !rightSign
  | finite leftSign left _, finite rightSign right _ =>
      decide (signed leftSign left < signed rightSign right)
  | _, _ => false

theorem notEqualsNan (value : Binary64) : value.equals nan = false := by
  cases value <;> rfl

theorem equalsComm (left right : Binary64) : left.equals right = right.equals left := by
  cases left <;> cases right <;> simp [equals, Bool.beq_comm]

end Binary64

end FourCards
