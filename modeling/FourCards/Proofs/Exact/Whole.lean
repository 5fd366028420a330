/-
This file proves that sums, differences and products of whole numbers are computed exactly, as long as
neither the numbers nor any result on the way leaves the range of the whole numbers that have at most
fifty-three binary digits.
-/

import FourCards.Proofs.Exact.Rounding
import FourCards.Proofs.Grammar.Reading
import FourCards.Proofs.Grammar.Numbers

namespace FourCards

open Grammar Binary64

namespace Grammar

/-- The property holds of the tree; of the rest of a chain, if it holds of the tree before it. -/
def Phrase.Keeps (property : Expression → Prop) : (phrase : Phrase) → phrase.Meaning Expression → Prop
  | complete _, tree => property tree
  | rest _, extend => ∀ left, property left → property (extend left)

/-- A property holds of the tree of a text if it holds of the numerals that can be written with the
characters of the text and is kept by the operators that can. -/
theorem Derivation.keeps_tree (property : Expression → Prop) {characters : List Char}
    (literal : ∀ numeral, numeral.write ⊆ characters → property (.literal numeral))
    (apply : ∀ operator left right, operator.symbol ∈ characters → property left → property right →
      property (.apply operator left right))
    {phrase : Phrase} (derivation : Derivation phrase) (written : derivation.text ⊆ characters) :
    phrase.Keeps property derivation.tree := by
  induction derivation with
  | numeral number spelled => exact literal number written
  | group inner innerKeeps => exact innerKeeps fun character inside => written (by simp [text, inside])
  | chain first others firstKeeps othersKeeps =>
      have firstHolds := firstKeeps fun character inside => written (by simp [text, inside])
      exact othersKeeps (fun character inside => written (by simp [text, inside])) _ firstHolds
  | done => exact fun left holds => holds
  | more operator kind next others nextKeeps othersKeeps =>
      intro left holds
      have nextHolds := nextKeeps fun character inside => written (by simp [text, inside])
      have joined := apply operator left next.tree (written (by simp [text])) holds nextHolds
      exact othersKeeps (fun character inside => written (by simp [text, inside])) _ joined

end Grammar

namespace Expression

/-- The expression and every operand in it. -/
def parts : Expression → List Expression
  | literal numeral => [literal numeral]
  | apply operator left right => apply operator left right :: (left.parts ++ right.parts)

/-- No numeral and no result on the way has more than fifty-three binary digits, but for the first
number of fifty-four. -/
def Bounded (expression : Expression) : Prop :=
  ∀ part ∈ expression.parts, ∀ number ∈ part.rational?, -2 ^ 53 ≤ number ∧ number ≤ 2 ^ 53

/-- The exact value is a whole number, and it is computed if all results on the way are bounded. -/
def ComesToWhole (expression : Expression) : Prop :=
  ∃ number : ℤ, expression.rational? = some (number : ℚ) ∧
    (expression.Bounded → expression.value.StandsFor number)

/-- An expression is a part of itself. -/
theorem self_mem_parts (expression : Expression) : expression ∈ expression.parts := by
  cases expression <;> simp [parts]

/-- A whole value within the bounds is no larger than `2 ^ 53`. -/
theorem Bounded.natAbs_le {expression : Expression} (bounded : expression.Bounded) {number : ℤ}
    (result : expression.rational? = some (number : ℚ)) : number.natAbs ≤ 2 ^ 53 := by
  have within := bounded expression expression.self_mem_parts number result
  have lower : -2 ^ 53 ≤ number := by exact_mod_cast within.1
  have upper : number ≤ 2 ^ 53 := by exact_mod_cast within.2
  omega

/-- A numeral without decimals comes to its whole number. -/
theorem comesToWhole_literal {numeral : Numeral} (noDecimals : numeral.decimals = []) :
    (literal numeral).ComesToWhole := by
  have exact : (literal numeral).rational? = some ((Text.numberOf numeral.whole : ℤ) : ℚ) := by
    rw [rational?, Numeral.rational, noDecimals, List.append_nil, List.length_nil, pow_zero, div_one,
      Int.cast_natCast]
  refine ⟨Text.numberOf numeral.whole, exact, fun bounded => ?_⟩
  have small := bounded.natAbs_le exact
  rw [Int.natAbs_natCast] at small
  rw [value, Numeral.value, noDecimals, List.append_nil, List.length_nil, ofDecimalWhole,
    Int.cast_natCast]
  exact ofNat_standsFor small

end Expression

/-- Sums, differences and products of whole numbers are whole. -/
theorem Operator.exists_whole {operator : Operator} (noDivision : operator ≠ .div) (left right : ℤ) :
    ∃ number : ℤ, operator.rational? left right = some (number : ℚ) := by
  cases operator with
  | add => exact ⟨left + right, by rw [rational?, Int.cast_add]⟩
  | sub => exact ⟨left - right, by rw [rational?, Int.cast_sub]⟩
  | mul => exact ⟨left * right, by rw [rational?, Int.cast_mul]⟩
  | div => exact absurd rfl noDivision

namespace Expression

/-- Without division, whole operands come to a whole result. -/
theorem comesToWhole_apply {operator : Operator} {left right : Expression}
    (noDivision : operator ≠ .div) (leftWhole : left.ComesToWhole) (rightWhole : right.ComesToWhole) :
    (apply operator left right).ComesToWhole := by
  obtain ⟨leftNumber, leftExact, leftComputed⟩ := leftWhole
  obtain ⟨rightNumber, rightExact, rightComputed⟩ := rightWhole
  obtain ⟨number, result⟩ := Operator.exists_whole noDivision leftNumber rightNumber
  have exact : (apply operator left right).rational? = some (number : ℚ) :=
    rational?_apply_eq_some_iff.mpr ⟨leftNumber, rightNumber, leftExact, rightExact, result⟩
  refine ⟨number, exact, fun bounded => ?_⟩
  have leftBounded : left.Bounded := fun part inside => bounded part (by simp [parts, inside])
  have rightBounded : right.Bounded := fun part inside => bounded part (by simp [parts, inside])
  have small := bounded.natAbs_le exact
  rw [value, ← rounded_whole number small]
  refine Operator.apply_standsFor (leftComputed leftBounded) (rightComputed rightBounded) result ?_
  have magnitude : |number| ≤ 2 ^ 64 := by
    rw [Int.abs_eq_natAbs]
    omega
  exact_mod_cast magnitude

/-- An accepted text without points and divisions comes to a whole number in exact arithmetic, and it is
evaluated to this number if its numerals and all results on the way lie between `-2 ^ 53` and `2 ^ 53`.
Results are those of the text's derivation, in which every chain groups from the left. -/
theorem evaluate_whole (text : String) (accepted : (evaluate text).isOk = true)
    (noDivision : '/' ∉ text.toList) (noPoint : '.' ∉ text.toList) :
    ∃ (derivation : Derivation (.complete .expression)) (number : ℤ),
      derivation.text = Text.strip text.toList ∧ derivation.depth ≤ 256 ∧
      derivation.tree.rational? = some (number : ℚ) ∧
      ((∀ part ∈ derivation.tree.parts, ∀ result ∈ part.rational?,
          -2 ^ 53 ≤ result ∧ result ≤ 2 ^ 53) →
        ∃ value, evaluate text = .ok value ∧ value.StandsFor number) := by
  cases read : ofText text with
  | error cause =>
      rw [evaluate, read] at accepted
      cases accepted
  | ok tree =>
      obtain ⟨derivation, derived, shallow, rfl⟩ := ofText_eq_ok_iff.mp read
      have written : derivation.text ⊆ text.toList := by
        rw [derived]
        exact List.filter_subset_self _
      have whole : derivation.tree.ComesToWhole := by
        refine derivation.keeps_tree ComesToWhole ?_ ?_ written
        · intro numeral inside
          refine comesToWhole_literal ?_
          by_contra decimals
          exact noPoint (inside (by simp [Numeral.write, decimals]))
        · intro operator left right inside leftWhole rightWhole
          refine comesToWhole_apply ?_ leftWhole rightWhole
          rintro rfl
          exact noDivision inside
      obtain ⟨number, exact, computed⟩ := whole
      refine ⟨derivation, number, derived, shallow, exact, fun bounded => ?_⟩
      refine ⟨derivation.tree.value, ?_, computed bounded⟩
      rw [evaluate, read, Except.map]

/-- A sum that goes from one end of the range to the other, and a numeral with leading zeros. -/
theorem evaluate_whole_ends :
    ∃ value, evaluate "0009007199254740991 + (7-6)*1 - 9007199254740992 - 9007199254740992" =
      .ok value ∧ value.StandsFor ((-9007199254740992 : ℤ) : ℚ) := by
  let largest := literal (.ofNat 9007199254740992)
  let one := apply .mul (apply .sub (literal (.ofNat 7)) (literal (.ofNat 6))) (literal (.ofNat 1))
  let sum := apply .add (literal ⟨"0009007199254740991".toList, []⟩) one
  let tree := apply .sub (apply .sub sum largest) largest
  obtain ⟨derivation, number, derived, shallow, exact, computed⟩ := evaluate_whole
    "0009007199254740991 + (7-6)*1 - 9007199254740992 - 9007199254740992" (by decide +kernel)
    (by decide) (by decide)
  have read : ofText "0009007199254740991 + (7-6)*1 - 9007199254740992 - 9007199254740992" =
      .ok tree := by decide +kernel
  rw [ofText_eq_ok_iff.mpr ⟨derivation, derived, shallow, rfl⟩] at read
  rw [Except.ok.inj read] at exact computed
  have value : tree.rational? = some ((-9007199254740992 : ℤ) : ℚ) := by decide +kernel
  have same : number = -9007199254740992 := by
    exact_mod_cast Option.some.inj (exact.symm.trans value)
  rw [← same]
  exact computed (by decide +kernel)

end Expression

end FourCards
