/-
This file proves that the numbers found in a text without parsing it are those of the numerals of
its derivation, so that an answer that is evaluated uses every value of the hand exactly once.
-/

import FourCards.Proofs.Game.Verification
import FourCards.Proofs.Grammar.Reading
import FourCards.Proofs.Hand.Usage

namespace FourCards

open Grammar

namespace Numeral

/-- The runs of digits of a numeral: those before the point, and those after it if it has one. -/
def runs (numeral : Numeral) : List (List Char) :=
  if numeral.decimals = [] then [numeral.whole] else [numeral.whole, numeral.decimals]

/-- The integer part and, if there is a point, the decimals as an integer; both are capped. -/
def numbers (numeral : Numeral) : List Nat :=
  numeral.runs.map fun run => min (Text.numberOf run) Text.largestNumber

/-- A numeral has no runs of digits but its own. -/
theorem Spelled.digitRuns_write {numeral : Numeral} (spelled : numeral.Spelled) :
    Text.digitRuns numeral.write = numeral.runs := by
  have whole := Text.digitRuns_digits spelled.wholeNonempty spelled.wholeDigits
  unfold write runs
  split
  · exact whole
  · rename_i nonempty
    rw [Text.digitRuns_append_cons _ _ (by decide), whole,
      Text.digitRuns_digits nonempty spelled.decimalDigits]
    rfl

end Numeral

/-- No operator is written as a digit. -/
theorem Operator.symbol_not_isDigit (operator : Operator) :
    operator.symbol.isDigit = false := by
  cases operator <;> decide

namespace Grammar.Derivation

/-- A run of digits ends before the rest of a chain, which begins with an operator if not empty. -/
theorem endsRun_others {additive : Bool} (others : Derivation (.rest additive))
    {unread : List Char} (ends : Text.EndsRun unread) : Text.EndsRun (others.text ++ unread) := by
  cases others with
  | done => exact ends
  | more operator kind next others =>
      intro character first
      obtain rfl : operator.symbol = character := by simpa [text] using first
      exact operator.symbol_not_isDigit

/-- The runs of digits of a phrase are those of its numerals. -/
theorem digitRuns_text {phrase : Phrase} (derivation : Derivation phrase) {unread : List Char}
    (ends : Text.EndsRun unread) :
    Text.digitRuns (derivation.text ++ unread) =
      derivation.literals.flatMap Numeral.runs ++ Text.digitRuns unread := by
  induction derivation generalizing unread with
  | numeral number spelled =>
      rw [text, literals, Text.digitRuns_run _ ends, spelled.digitRuns_write,
        List.flatMap_singleton]
  | group inner inductionHypothesis =>
      have closing : Text.EndsRun (')' :: unread) := by
        intro character first
        obtain rfl : ')' = character := by simpa using first
        decide
      rw [text, literals, List.cons_append, List.append_assoc,
        Text.digitRuns_cons _ _ (by decide), List.singleton_append, inductionHypothesis closing,
        Text.digitRuns_cons _ _ (by decide)]
  | chain first others firstHypothesis othersHypothesis =>
      rw [text, literals, List.append_assoc, firstHypothesis (endsRun_others others ends),
        othersHypothesis ends, List.flatMap_append, List.append_assoc]
  | done => rfl
  | more operator kind next others nextHypothesis othersHypothesis =>
      rw [text, literals, List.cons_append, List.append_assoc,
        Text.digitRuns_cons _ _ operator.symbol_not_isDigit,
        nextHypothesis (endsRun_others others ends), othersHypothesis ends,
        List.flatMap_append, List.append_assoc]

/-- The characters of a numeral stand in the text of every phrase that has it. -/
theorem write_subset_text {phrase : Phrase} (derivation : Derivation phrase) {number : Numeral}
    (inside : number ∈ derivation.literals) : number.write ⊆ derivation.text := by
  induction derivation with
  | numeral other spelled =>
      obtain rfl := List.mem_singleton.mp inside
      exact List.Subset.refl _
  | group inner inductionHypothesis =>
      intro character written
      simp [text, inductionHypothesis inside written]
  | chain first others firstHypothesis othersHypothesis =>
      intro character written
      rcases List.mem_append.mp inside with inside | inside
      · simp [text, firstHypothesis inside written]
      · simp [text, othersHypothesis inside written]
  | done => cases inside
  | more operator kind next others nextHypothesis othersHypothesis =>
      intro character written
      rcases List.mem_append.mp inside with inside | inside
      · simp [text, nextHypothesis inside written]
      · simp [text, othersHypothesis inside written]

/-- A text without points has no numerals with decimals. -/
theorem decimals_of_noPoint {phrase : Phrase} (derivation : Derivation phrase)
    (noPoint : '.' ∉ derivation.text) :
    ∀ number ∈ derivation.literals, number.decimals = [] := by
  intro number inside
  by_contra nonempty
  refine noPoint (derivation.write_subset_text inside ?_)
  simp [Numeral.write, nonempty]

end Grammar.Derivation

/-- The numbers of a derived text are those of its numerals. -/
theorem Grammar.Derivation.numbers_text {phrase : Phrase} (derivation : Derivation phrase) :
    Text.numbers derivation.text = derivation.literals.flatMap Numeral.numbers := by
  have runs := derivation.digitRuns_text Text.endsRun_nil
  rw [List.append_nil, Text.digitRuns_nil, List.append_nil] at runs
  rw [Text.numbers_eq_map, runs, List.map_flatMap]
  rfl

/-- A text without whitespace inside its numbers has the numbers of its derivation. -/
theorem Text.numbers_of_derivation {text : List Char} (unbroken : Text.Unbroken text)
    (derivation : Derivation (.complete .expression)) (derived : derivation.text = Text.strip text) :
    Text.numbers text = derivation.literals.flatMap Numeral.numbers := by
  rw [← derivation.numbers_text, derived, Text.numbers_eq_map, Text.numbers_eq_map,
    Text.digitRuns_strip unbroken]

/-- Without decimals a numeral is one number. -/
theorem Numeral.numbers_of_whole {numeral : Numeral} (whole : numeral.decimals = []) :
    numeral.numbers = [min (Text.numberOf numeral.whole) Text.largestNumber] := by
  simp [numbers, runs, whole]

/-- The numbers of numerals without decimals are the values of a hand exactly if the numerals spell
these values, each once. -/
theorem Hand.numerals_perm_iff (hand : Hand) {numerals : List Numeral}
    (whole : ∀ numeral ∈ numerals, numeral.decimals = []) :
    (numerals.flatMap Numeral.numbers).Perm hand.toList ↔
      (numerals.map fun numeral => Text.numberOf numeral.whole).Perm hand.toList := by
  have capped : numerals.flatMap Numeral.numbers =
      (numerals.map fun numeral => Text.numberOf numeral.whole).map
        fun number => min number Text.largestNumber := by
    rw [List.map_map, List.map_eq_flatMap]
    exact List.flatMap_congr fun numeral inside => Numeral.numbers_of_whole (whole numeral inside)
  rw [capped, hand.capped_perm_iff]

/-- An answer without points that is evaluated is an expression of four numerals, which spell the
values of the hand. -/
theorem Hand.literals_of_evaluated (hand : Hand) (settings : Settings) {text : String}
    {value : Binary64} (unbroken : Text.Unbroken text.toList) (noPoint : '.' ∉ text.toList)
    (evaluated : (hand.verify settings text).value? = some value) :
    ∃ tree, Expression.ofText text = .ok tree ∧ tree.literals.length = 4 ∧
      (∀ numeral ∈ tree.literals, numeral.decimals = []) ∧
        (tree.literals.map fun numeral => Text.numberOf numeral.whole).Perm hand.toList := by
  obtain ⟨-, usage, result⟩ := (hand.value?_verify_eq_some_iff settings).mp evaluated
  cases parsed : Expression.ofText text with
  | error cause =>
      rw [Expression.evaluate, parsed] at result
      cases result
  | ok tree =>
      obtain ⟨derivation, derived, -, rfl⟩ := Expression.ofText_eq_ok_iff.mp parsed
      have stripped : '.' ∉ derivation.text := by
        rw [derived]
        exact fun inside => noPoint (List.mem_of_mem_filter inside)
      have whole := derivation.decimals_of_noPoint stripped
      rw [Text.numbers_of_derivation unbroken derivation derived] at usage
      have perm := (hand.numerals_perm_iff whole).mp usage
      rw [← derivation.literals_tree] at whole perm
      refine ⟨_, rfl, ?_, whole, perm⟩
      have count := perm.length_eq
      rwa [List.length_map] at count

/-- If no whitespace stands inside a number, the numbers found in an accepted text are those of the
numerals of its derivation, and an answer without points that is evaluated has four numerals, which
spell the values of the hand. -/
theorem numbers_of_accepted (text : String) (unbroken : Text.Unbroken text.toList) :
    ((Expression.evaluate text).isOk = true →
      ∃ derivation : Derivation (.complete .expression),
        derivation.text = Text.strip text.toList ∧ derivation.depth ≤ 256 ∧
          Expression.evaluate text = .ok derivation.value ∧
            Text.numbers text.toList = derivation.literals.flatMap Numeral.numbers) ∧
    ∀ (hand : Hand) (settings : Settings), '.' ∉ text.toList →
      ((∃ value, hand.verify settings text = .nonFiniteResult value) ∨
        ∃ value target matchesTarget,
          hand.verify settings text = .numericResult value target matchesTarget) →
      ∃ tree, Expression.ofText text = .ok tree ∧ tree.literals.length = 4 ∧
        (∀ numeral ∈ tree.literals, numeral.decimals = []) ∧
          (tree.literals.map fun numeral => Text.numberOf numeral.whole).Perm hand.toList := by
  constructor
  · intro accepted
    cases parsed : Expression.ofText text with
    | error cause =>
        rw [Expression.evaluate, parsed] at accepted
        cases accepted
    | ok tree =>
        obtain ⟨derivation, derived, shallow, rfl⟩ := Expression.ofText_eq_ok_iff.mp parsed
        refine ⟨derivation, derived, shallow, ?_,
          Text.numbers_of_derivation unbroken derivation derived⟩
        rw [Expression.evaluate, parsed, Except.map, derivation.value_tree]
  · rintro hand settings noPoint (⟨value, verdict⟩ | ⟨value, target, matchesTarget, verdict⟩)
    · exact hand.literals_of_evaluated settings unbroken noPoint (congrArg Outcome.value? verdict)
    · exact hand.literals_of_evaluated settings unbroken noPoint (congrArg Outcome.value? verdict)

/-- An answer with whitespace beside its numbers and with leading zeros, which comes to 23. -/
theorem numbers_of_spacedAnswer :
    (∃ derivation : Derivation (.complete .expression),
      derivation.text = Text.strip " (08*3 )\t/1 - 01".toList ∧ derivation.depth ≤ 256 ∧
        Expression.evaluate " (08*3 )\t/1 - 01" = .ok derivation.value ∧
          Text.numbers " (08*3 )\t/1 - 01".toList =
            derivation.literals.flatMap Numeral.numbers) ∧
    ∃ tree, Expression.ofText " (08*3 )\t/1 - 01" = .ok tree ∧ tree.literals.length = 4 ∧
      (∀ numeral ∈ tree.literals, numeral.decimals = []) ∧
        (tree.literals.map fun numeral => Text.numberOf numeral.whole).Perm [1, 8, 1, 3] := by
  have agreement := numbers_of_accepted " (08*3 )\t/1 - 01" (by decide +kernel)
  constructor
  · exact agreement.1 (by decide +kernel)
  · exact agreement.2 ⟨⟨1, 8, 1, 3⟩, by decide⟩ .standard (by decide +kernel)
      (.inr ⟨Binary64.ofNat 23, Binary64.ofNat 24, false, by decide +kernel⟩)

end FourCards
