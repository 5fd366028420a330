/-
This file proves that the numbers of a text are accepted for a hand exactly if its runs of digits
spell the values of the hand, each once.
-/

import FourCards.Binary64.Basic
import FourCards.Proofs.Text.Scan
import FourCards.Usage

namespace FourCards

/-- Numbers are the same in ascending order if they are the same in any order. -/
theorem mergeSort_eq_iff {numbers others : List Nat} :
    numbers.mergeSort = others.mergeSort ↔ numbers.Perm others := by
  have sorted := List.mergeSort_perm numbers (· ≤ ·)
  have otherSorted := List.mergeSort_perm others (· ≤ ·)
  constructor
  · intro same
    exact sorted.symm.trans ((List.Perm.of_eq same).trans otherSorted)
  · intro perm
    exact List.Perm.eq_of_pairwise' (List.pairwise_mergeSort' (· ≤ ·) _)
      (List.pairwise_mergeSort' (· ≤ ·) _) (sorted.trans (perm.trans otherSorted.symm))

namespace Hand

/-- A value of a hand is too small to be a capped number. -/
theorem uncapped_of_mem (hand : Hand) {number : Nat}
    (inside : min number Text.largestNumber ∈ hand.toList) :
    min number Text.largestNumber = number := by
  have bound := (hand.inRange _ inside).2
  have large : 13 < Text.largestNumber := by decide
  omega

/-- The values of a hand are small enough to be counted. -/
theorem capped_of_mem (hand : Hand) {number : Nat} (inside : number ∈ hand.toList) :
    min number Text.largestNumber = number :=
  Nat.min_eq_left ((hand.inRange _ inside).2.trans (by decide))

/-- Numbers of any size are the values of a hand exactly if they are so once they are capped. -/
theorem capped_perm_iff (hand : Hand) (numbers : List Nat) :
    (numbers.map fun number => min number Text.largestNumber).Perm hand.toList ↔
      numbers.Perm hand.toList := by
  have unchanged (same : ∀ number ∈ numbers, min number Text.largestNumber = number) :
      (numbers.map fun number => min number Text.largestNumber) = numbers := by
    rw [List.map_congr_left same, List.map_id']
  constructor
  · intro perm
    rwa [unchanged fun number inside =>
      hand.uncapped_of_mem (perm.subset (List.mem_map_of_mem inside))] at perm
  · intro perm
    rwa [unchanged fun number inside => hand.capped_of_mem (perm.subset inside)]

/-- The numbers and the values of the hand are compared in ascending order. -/
theorem checkUsage_eq_sorted (hand : Hand) (text : String) :
    hand.checkUsage text =
      if (Text.numbers text.toList).mergeSort = hand.sorted then .ok ()
      else .error ⟨hand.toList, (Text.numbers text.toList).mergeSort⟩ := by
  simp only [checkUsage, sorted, mergeSort_eq_iff, List.isPerm_iff]

/-- A refusal names the values of the hand in their order and the numbers that were found in
ascending order. -/
theorem checkUsage_ok_or_error (hand : Hand) (text : String) :
    hand.checkUsage text = .ok () ∨
      ∃ found, hand.checkUsage text = .error ⟨hand.toList, found⟩ ∧
        found.Perm (Text.numbers text.toList) ∧ found.Pairwise (· ≤ ·) := by
  simp only [checkUsage]
  split
  · exact .inl rfl
  · exact .inr ⟨_, rfl, List.mergeSort_perm _ _, List.pairwise_mergeSort' (· ≤ ·) _⟩

/-- The numbers of a text are the capped numbers that its maximal runs of digits spell, in their
order. They are accepted exactly if the runs, however long, spell the values of the hand in some
order, and they are refused otherwise. -/
theorem checkUsage_exact (text : String) :
    ∃ runs, Text.Pieces (fun character => !character.isDigit) text.toList runs ∧
      Text.numbers text.toList = runs.map (fun run => min (Text.numberOf run) (2 ^ 64 - 1)) ∧
        ∀ hand : Hand,
          (hand.checkUsage text = .ok () ↔ (runs.map Text.numberOf).Perm hand.toList) ∧
            (hand.checkUsage text = .ok () ∨
              ∃ found, hand.checkUsage text = .error ⟨hand.toList, found⟩ ∧
                found.Perm (Text.numbers text.toList) ∧ found.Pairwise (· ≤ ·)) := by
  obtain ⟨runs, cut⟩ := Text.exists_pieces (fun character => !character.isDigit) text.toList
  have scanned := cut.numbers_eq
  refine ⟨runs, cut, scanned, fun hand => ⟨?_, hand.checkUsage_ok_or_error text⟩⟩
  have capped : Text.numbers text.toList =
      (runs.map Text.numberOf).map fun number => min number Text.largestNumber := by
    rw [scanned, List.map_map]
    rfl
  rw [checkUsageOk, capped, capped_perm_iff]

end Hand

end FourCards
