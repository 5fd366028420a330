/-
This file compares hands with the same values in another order: the same expressions are found for
them, and an answer is judged alike.
-/

import FourCards.Game.Values
import FourCards.Proofs.Hand.Usage
import FourCards.Proofs.Search.Arrangements
import FourCards.Proofs.Search.Direct

namespace FourCards

/-- Nothing is kept twice where repeats are removed. -/
theorem nodup_eraseDups {α : Type} [BEq α] [LawfulBEq α] (items : List α) :
    items.eraseDups.Nodup := by
  cases items with
  | nil => exact List.nodup_nil
  | cons first others =>
      rw [List.eraseDups_cons, List.nodup_cons]
      refine ⟨?_, nodup_eraseDups (others.filter fun other => !other == first)⟩
      simp [List.mem_eraseDups]
termination_by items.length
decreasing_by exact Nat.lt_succ_of_le (List.length_filter_le _ _)

variable {hand other : Hand}

/-- Hands have the same values in ascending order if they have the same values in any order. -/
theorem Hand.sorted_eq_iff : hand.sorted = other.sorted ↔ hand.toList.Perm other.toList :=
  mergeSort_eq_iff

namespace Solver

/-- No solution is listed twice. -/
theorem nodup_solutions (target : Binary64) (hand : Hand) : (solutions target hand).Nodup :=
  nodup_eraseDups _

/-- The solutions of a hand are those of its values in any other order, in another order perhaps. -/
theorem solutions_perm (target : Binary64) (perm : hand.toList.Perm other.toList) :
    (solutions target hand).Perm (solutions target other) := by
  have nodup := nodup_solutions target
  refine (List.perm_ext_iff_of_nodup (nodup hand) (nodup other)).mpr fun text => ?_
  have tried (candidate : Candidate) :
      candidate ∈ candidates hand ↔ candidate ∈ candidates other := by
    rw [mem_candidates_iff_perm, mem_candidates_iff_perm]
    exact perm.congr_right _
  simp only [mem_solutions_iff, tried]

/-- The search finds something if there are solutions. -/
theorem isSome_solve (target : Binary64) (hand : Hand) :
    (solve target hand).isSome = !(solutions target hand).isEmpty := by
  rw [solve_eq_head?]
  cases solutions target hand <;> rfl

/-- A hint is found if the search finds something. -/
theorem isFound_hint (target : Binary64) (hand : Hand) :
    (hint target hand).isFound = (solve target hand).isSome := by
  unfold hint
  cases solve target hand <;> rfl

end Solver

namespace Hand

/-- The numbers that are used are compared with the values in any order. -/
theorem checkUsage_perm (perm : hand.toList.Perm other.toList) (text : String) :
    (hand.checkUsage text = .ok () ∧ other.checkUsage text = .ok ()) ∨
      ∃ found, hand.checkUsage text = .error ⟨hand.toList, found⟩ ∧
        other.checkUsage text = .error ⟨other.toList, found⟩ := by
  rw [checkUsage_eq_sorted, checkUsage_eq_sorted, sorted_eq_iff.mpr perm]
  split
  · exact .inl ⟨rfl, rfl⟩
  · exact .inr ⟨_, rfl, rfl⟩

/-- Once the numbers are accepted, they are not complained of. -/
theorem verify_ne_wrongNumbers {text : String} (used : hand.checkUsage text = .ok ())
    (settings : Settings) (expected : List Nat) :
    hand.verify settings text ≠ .wrongNumbers expected := by
  simp only [verify, used]
  split
  · simp
  · cases Expression.evaluate text with
    | error cause => simp
    | ok value => simp only; split <;> simp

/-- An answer is judged alike, but each hand tells its own values in its own order. -/
theorem verify_perm (perm : hand.toList.Perm other.toList) (settings : Settings) (text : String) :
    (hand.verify settings text = other.verify settings text ∧
        ∀ expected, hand.verify settings text ≠ .wrongNumbers expected) ∨
      (hand.verify settings text = .wrongNumbers hand.toList ∧
        other.verify settings text = .wrongNumbers other.toList) := by
  rcases checkUsage_perm perm text with ⟨used, otherUsed⟩ | ⟨found, wrong, otherWrong⟩
  · refine .inl ⟨?_, verify_ne_wrongNumbers used settings⟩
    simp only [verify, used, otherUsed]
  · cases blank : isBlank text with
    | true => exact .inl (by simp [verify, blank])
    | false => exact .inr (by simp [verify, blank, wrong, otherWrong])

/-- The order in which the values of a hand are written changes neither the solutions for any target,
but for their order, nor whether anything is found, nor the verdict on an answer, but for the list of
the values that were to be used. -/
theorem order_irrelevant (same : hand.sorted = other.sorted) :
    (∀ target, (Solver.solutions target hand).Perm (Solver.solutions target other) ∧
      (Solver.solve target hand).isSome = (Solver.solve target other).isSome ∧
      (Solver.hint target hand).isFound = (Solver.hint target other).isFound) ∧
    ∀ settings text,
      (hand.verify settings text = other.verify settings text ∧
          ∀ expected, hand.verify settings text ≠ .wrongNumbers expected) ∨
        (hand.verify settings text = .wrongNumbers hand.toList ∧
          other.verify settings text = .wrongNumbers other.toList) := by
  have perm := sorted_eq_iff.mp same
  refine ⟨fun target => ?_, fun settings text => verify_perm perm settings text⟩
  have solutions := Solver.solutions_perm target perm
  have solved : (Solver.solve target hand).isSome = (Solver.solve target other).isSome := by
    rw [Solver.isSome_solve, Solver.isSome_solve, solutions.isEmpty_eq]
  refine ⟨solutions, solved, ?_⟩
  rw [Solver.isFound_hint, Solver.isFound_hint, solved]

/-- Four values and the same backwards. -/
theorem order_irrelevant_backwards :
    ∃ hand other : Hand, hand.values = ⟨4, 6, 2, 8⟩ ∧ other.values = ⟨8, 2, 6, 4⟩ ∧
      hand.sorted = other.sorted ∧
      (Solver.solutions Settings.standard.target hand).Perm
        (Solver.solutions Settings.standard.target other) ∧
      hand.verify .standard "4+6" = .wrongNumbers [4, 6, 2, 8] ∧
      other.verify .standard "4+6" = .wrongNumbers [8, 2, 6, 4] := by
  have same : sorted ⟨⟨4, 6, 2, 8⟩, by decide⟩ = sorted ⟨⟨8, 2, 6, 4⟩, by decide⟩ :=
    sorted_eq_iff.mpr (by decide)
  have alike := order_irrelevant same
  have verdicts := (alike.2 .standard "4+6").resolve_left
    fun accepted => accepted.2 [4, 6, 2, 8] (by decide +kernel)
  exact ⟨⟨⟨4, 6, 2, 8⟩, by decide⟩, ⟨⟨8, 2, 6, 4⟩, by decide⟩, rfl, rfl, same, (alike.1 _).1,
    verdicts⟩

end Hand

end FourCards
