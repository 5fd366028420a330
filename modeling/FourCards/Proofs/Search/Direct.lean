/-
This file proves that the search through texts finds the candidates whose direct value is the target,
and that the first text it finds is the first of all the texts it lists.
-/

import FourCards.Proofs.Search.Candidate
import FourCards.Proofs.Search.Enumeration

namespace FourCards

namespace Solver

/-- The texts that make the target are those of the candidates with that value, in order. -/
theorem filter_makes (target : Binary64) (candidates : List Candidate) :
    (candidates.map Candidate.text).filter (makes target) =
      (candidates.filter fun candidate => candidate.directValue.equals target).map
        Candidate.text := by
  rw [List.filter_map]
  congr 1
  refine List.filter_congr fun candidate _ => ?_
  exact makes_text target candidate

/-- The solutions are the texts of the candidates with that value, without repeats. -/
theorem solutions_eq (target : Binary64) (hand : Hand) :
    solutions target hand =
      (((candidates hand).filter fun candidate => candidate.directValue.equals target).map
        Candidate.text).eraseDups := by
  rw [solutions, filter_makes]

/-- A text is a solution if it is that of a candidate whose value is the target. -/
theorem mem_solutions_iff {target : Binary64} {hand : Hand} {text : String} :
    text ∈ solutions target hand ↔
      ∃ candidate ∈ candidates hand, candidate.directValue.equals target = true ∧
        candidate.text = text := by
  simp only [solutions_eq, List.mem_eraseDups, List.mem_map, List.mem_filter, and_assoc]

/-- The first of some items is kept where repeats are removed. -/
theorem head?_eraseDups {α : Type} [BEq α] (items : List α) :
    items.eraseDups.head? = items.head? := by
  cases items with
  | nil => rfl
  | cons first others => rw [List.eraseDups_cons, List.head?_cons, List.head?_cons]

/-- The search stops at the first of the solutions. -/
theorem solve_eq_head? (target : Binary64) (hand : Hand) :
    solve target hand = (solutions target hand).head? := by
  rw [solve, solutions, head?_eraseDups, List.head?_filter]

/-- Of 4608 choices, which are all of those that take no slot twice in lexicographic order, the search
lists the texts of those whose direct value is the target, each when it first occurs. It finds the
first of them, and nothing exactly if there is none. -/
theorem solutions_eq_directSearch :
    Choice.all.length = 4608 ∧
    (∀ choice, choice ∈ Choice.all ↔ choice.slots.toList.Nodup) ∧
    (Choice.all.Pairwise fun earlier later => earlier.key < later.key) ∧
    ∀ (target : Binary64) (hand : Hand),
      solutions target hand =
        (((Choice.all.map fun choice => choice.candidate hand).filter
          fun candidate => candidate.directValue.equals target).map Candidate.text).eraseDups ∧
      solve target hand = (solutions target hand).head? ∧
      (solve target hand = none ↔ solutions target hand = []) := by
  refine ⟨Choice.length_all, Choice.mem_all_iff, Choice.pairwise_all, fun target hand => ?_⟩
  refine ⟨?_, solve_eq_head? target hand, ?_⟩
  · rw [solutions_eq, Choice.candidates_eq_map]
  · rw [solve_eq_head?, List.head?_eq_none_iff]

end Solver

end FourCards
