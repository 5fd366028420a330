/-
This file proves that the arrangements of four things are exactly their permutations, so that the
search tries every candidate whose operands are the values of the hand in some order.
-/

import FourCards.Solver
import Mathlib.Data.List.Permutation
import Mathlib.Tactic

namespace FourCards

namespace Four

variable {α : Type}

/-- The orders of the slots are all their permutations. -/
theorem slotArrangements_perm :
    (slotArrangements.map toList).Perm slots.permutations' := by
  decide

/-- The arrangements are the permutations. -/
theorem mem_arrangements_iff {four other : Four α} :
    other ∈ four.arrangements ↔ other.toList.Perm four.toList := by
  have slotwise : four.toList = slots.map four.get := rfl
  rw [slotwise, ← List.mem_permutations', ← List.map_permutations', List.mem_map]
  constructor
  · intro arranged
    obtain ⟨order, inside, rfl⟩ := List.mem_map.mp arranged
    exact ⟨order.toList, slotArrangements_perm.subset (List.mem_map_of_mem inside), rfl⟩
  · rintro ⟨order, inside, taken⟩
    obtain ⟨slot, arranged, rfl⟩ := List.mem_map.mp (slotArrangements_perm.symm.subset inside)
    refine List.mem_map.mpr ⟨_, arranged, toListInj ?_⟩
    rw [toListMap, taken]

/-- An arrangement of an arrangement is an arrangement. -/
theorem arrangements_trans {four other another : Four α} (first : other ∈ four.arrangements)
    (second : another ∈ other.arrangements) : another ∈ four.arrangements :=
  mem_arrangements_iff.mpr
    ((mem_arrangements_iff.mp second).trans (mem_arrangements_iff.mp first))

end Four

namespace Solver

variable {hand : Hand} {candidate : Candidate}

/-- A candidate is tried if its operands are an arrangement of the values. -/
theorem mem_candidates_iff :
    candidate ∈ candidates hand ↔ candidate.operands ∈ hand.values.arrangements := by
  simp only [candidates, List.mem_flatMap, Candidate.mem_enumerate_iff, exists_eq_right']

/-- The candidates of a hand are those with its values for operands, in any order. -/
theorem mem_candidates_iff_perm :
    candidate ∈ candidates hand ↔ candidate.operands.toList.Perm hand.toList :=
  mem_candidates_iff.trans Four.mem_arrangements_iff

end Solver

end FourCards
