/-
This file proves that the verdict on an answer depends on its whitespace only where this separates
digits.
-/

import FourCards.Game.Values
import FourCards.Proofs.Text.Gaps

namespace FourCards

open Text

variable {text other : String}

/-- Whitespace is as blank as nothing. -/
theorem isBlank_eq_all_strip (text : String) :
    isBlank text = (strip text.toList).all isAsciiControl := by
  rw [isBlank, strip, List.all_filter]
  simp only [Bool.not_not]

/-- Texts are evaluated alike if they are the same without whitespace. -/
theorem Expression.evaluate_congr (same : strip text.toList = strip other.toList) :
    evaluate text = evaluate other := by
  simp only [evaluate, ofText, same]

namespace Hand

variable (hand : Hand) (settings : Settings)

/-- Texts are checked alike if the same numbers are read in them. -/
theorem checkUsage_congr (same : numbers text.toList = numbers other.toList) :
    hand.checkUsage text = hand.checkUsage other := by
  simp only [checkUsage, same]

/-- Every check sees the same in both texts, so they fail at the same one or not at all. -/
theorem verify_congr (same : SameSeparations text.toList other.toList) :
    hand.verify settings text = hand.verify settings other := by
  have blank : isBlank text = isBlank other := by
    rw [isBlank_eq_all_strip, isBlank_eq_all_strip, same.stripped]
  have usage := hand.checkUsage_congr (numbers_congr same)
  have evaluated := Expression.evaluate_congr same.stripped
  simp only [verify, blank, usage, evaluated]

/-- Two answers with the same characters but for whitespace, which separates the same digits in both,
get the same verdict with the same cause. So an answer may be padded with whitespace at its ends. -/
theorem verify_spacing :
    (SameSeparations text.toList other.toList →
      hand.verify settings text = hand.verify settings other) ∧
    ∀ leading trailing : List Char,
      (∀ character ∈ leading, isAsciiWhitespace character = true) →
      (∀ character ∈ trailing, isAsciiWhitespace character = true) →
        hand.verify settings (String.ofList (leading ++ text.toList ++ trailing)) =
          hand.verify settings text := by
  constructor
  · exact hand.verify_congr settings
  · intro leading trailing leadingBlank trailingBlank
    apply hand.verify_congr
    rw [String.toList_ofList]
    exact sameSeparations_padded leadingBlank trailingBlank text.toList

/-- Both answers are found to use 1, 2, 3 and 4 and come to 24, since whitespace parts the first two
digits for the usage but not for the evaluation. -/
theorem verify_spacing_parted :
    SameSeparations "1 2+3*4".toList "1\t\n2 + 3 *4".toList ∧
      verify ⟨⟨1, 2, 3, 4⟩, by decide⟩ .standard "1\t\n2 + 3 *4" =
        .numericResult (Binary64.ofNat 24) (Binary64.ofNat 24) true ∧
      verify ⟨⟨1, 2, 3, 4⟩, by decide⟩ .standard "\r\n1 2+3*4 " =
        .numericResult (Binary64.ofNat 24) (Binary64.ofNat 24) true := by
  have same : SameSeparations "1 2+3*4".toList "1\t\n2 + 3 *4".toList := by
    constructor
    · decide
    · intro place left right
      match place with
      | 0 => exact ⟨fun _ => ⟨['1'], '\t', _, rfl, rfl, rfl⟩, fun _ => ⟨['1'], ' ', _, rfl, rfl, rfl⟩⟩
      | 1 => exact absurd right (by decide)
      | 2 => exact absurd left (by decide)
      | 3 => exact absurd right (by decide)
      | 4 => exact absurd left (by decide)
      | place + 5 => cases right
  have verdict : verify ⟨⟨1, 2, 3, 4⟩, by decide⟩ .standard "1 2+3*4" =
      .numericResult (Binary64.ofNat 24) (Binary64.ofNat 24) true := by
    decide +kernel
  have spacing := @verify_spacing "1 2+3*4" "1\t\n2 + 3 *4" ⟨⟨1, 2, 3, 4⟩, by decide⟩ .standard
  have padded := spacing.2 ['\r', '\n'] [' '] (List.all_eq_true.mp rfl)
    (List.all_eq_true.mp rfl)
  exact ⟨same, (spacing.1 same).symm.trans verdict, padded.trans verdict⟩

end Hand

end FourCards
