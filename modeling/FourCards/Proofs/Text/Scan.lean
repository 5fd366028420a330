/-
This file proves that the scan of a text finds the numbers that its maximal runs of digits spell.
Counting no further than the largest number at every digit caps the number as a whole.
-/

import FourCards.Proofs.Text.Runs

namespace FourCards.Text

/-- A capped number goes on as the number itself does, up to the cap. -/
theorem appendDigit_min (number : Nat) (digit : Char) :
    appendDigit (min number largestNumber) digit =
      min (10 * number + (digit.toNat - '0'.toNat)) largestNumber := by
  simp only [appendDigit]
  omega

/-- Digits that are appended one by one spell the capped number of all of them. -/
theorem foldl_appendDigit (digits : List Char) (number : Nat) :
    digits.foldl appendDigit (min number largestNumber) =
      min (Nat.ofDigitChars 10 digits number) largestNumber := by
  induction digits generalizing number with
  | nil => rfl
  | cons digit others inductionHypothesis =>
      rw [List.foldl_cons, appendDigit_min, inductionHypothesis, Nat.ofDigitChars_cons]

/-- Digits change the pending number only. -/
theorem scan_digits {digits : List Char} (text : List Char)
    (allDigits : ∀ character ∈ digits, character.isDigit = true) (number : Nat) :
    scan (some number) (digits ++ text) = scan (some (digits.foldl appendDigit number)) text := by
  induction digits generalizing number with
  | nil => rfl
  | cons digit others inductionHypothesis =>
      obtain ⟨isDigit, othersDigits⟩ := List.forall_mem_cons.mp allDigits
      rw [List.cons_append, scan, if_pos isDigit, Option.getD_some,
        inductionHypothesis othersDigits, List.foldl_cons]

/-- The pending number ends where its run ends. -/
theorem scan_endsRun {text : List Char} (ends : EndsRun text) (number : Nat) :
    scan (some number) text = number :: scan none text := by
  cases text with
  | nil => rfl
  | cons character tail =>
      have noDigit : character.isDigit = false := ends character rfl
      simp only [scan, noDigit, Bool.false_eq_true, if_false, Option.toList_some,
        Option.toList_none, List.nil_append, List.singleton_append]

/-- A run of digits is found as the number it spells. -/
theorem scan_run {run text : List Char} (nonempty : run ≠ [])
    (digits : ∀ character ∈ run, character.isDigit = true) (ends : EndsRun text) :
    scan none (run ++ text) = min (numberOf run) largestNumber :: scan none text := by
  obtain ⟨first, others, rfl⟩ := List.exists_cons_of_ne_nil nonempty
  obtain ⟨isDigit, othersDigits⟩ := List.forall_mem_cons.mp digits
  have spelled := foldl_appendDigit (first :: others) 0
  rw [Nat.zero_min] at spelled
  calc scan none (first :: others ++ text)
      = scan (some (appendDigit 0 first)) (others ++ text) := by
        rw [List.cons_append, scan, if_pos isDigit, Option.getD_none]
    _ = scan (some ((first :: others).foldl appendDigit 0)) text :=
        scan_digits text othersDigits _
    _ = (first :: others).foldl appendDigit 0 :: scan none text := scan_endsRun ends _
    _ = min (numberOf (first :: others)) largestNumber :: scan none text := by
        rw [spelled, numberOf]

/-- No run is lost, parted or joined with another. -/
theorem Pieces.numbers_eq {text : List Char} {runs : List (List Char)}
    (cut : Pieces (fun character => !character.isDigit) text runs) :
    numbers text = runs.map fun run => min (numberOf run) largestNumber := by
  unfold numbers
  induction cut with
  | done => rfl
  | @skip character text runs parting later sameLater =>
      have noDigit : character.isDigit = false := by simpa using parting
      rw [scan, noDigit, if_neg Bool.false_ne_true, Option.toList_none, List.nil_append, sameLater]
  | @piece run text runs nonempty whole ends later sameLater =>
      have digits : ∀ character ∈ run, character.isDigit = true := by simpa using whole
      have endsRun : EndsRun text := by simpa [EndsPiece, EndsRun] using ends
      rw [scan_run nonempty digits endsRun, sameLater, List.map_cons]

/-- The numbers of a text are those of its runs of digits, as far as numbers are counted. -/
theorem numbers_eq_map (text : List Char) :
    numbers text = (digitRuns text).map fun run => min (numberOf run) largestNumber :=
  (pieces_iff.mpr rfl).numbers_eq

example : numbers "08/2.5".toList = [8, 2, 5] := by
  decide

end FourCards.Text
