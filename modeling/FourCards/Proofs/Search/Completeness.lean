/-
This file proves that the search finds the candidates that come to 24 in rational arithmetic, except for
the listed ones, and that it finds something for every hand that has one of them.
-/

import FourCards.Proofs.Game.Verdict
import FourCards.Proofs.Search.Arrangements
import FourCards.Proofs.Search.Direct
import FourCards.Proofs.Search.Rounding

namespace FourCards

open Binary64

namespace Candidate

variable {candidate : Candidate}

/-- A numeral stands for its number. -/
theorem rational?_ofNat (number : Nat) :
    (Expression.literal (Numeral.ofNat number)).rational? = some (number : ℚ) := by
  rw [Expression.rational?, Numeral.rational, Numeral.ofNat, List.append_nil, Text.numberOfToDigits,
    List.length_nil, pow_zero, div_one]

/-- Two numerals come to what the operator makes of their numbers. -/
theorem rational?_pair (operator : Operator) (first second : Nat) :
    (Expression.apply operator (.literal (.ofNat first)) (.literal (.ofNat second))).rational? =
      operator.rational? first second := by
  rw [Expression.rational?, rational?_ofNat, rational?_ofNat, Option.bind_some, Option.bind_some]

/-- The expression of a candidate with card values is one of cards. -/
theorem ofCards_expression (cards : ∀ operand ∈ candidate.operands.toList, operand ∈ cardValues) :
    candidate.expression.OfCards := by
  intro numeral inside
  rw [literals_expression] at inside
  obtain ⟨operand, operandInside, rfl⟩ := List.mem_map.mp inside
  refine ⟨rfl, ?_⟩
  rw [Numeral.ofNat, Text.numberOfToDigits]
  exact mem_cardValues.mp (cards operand operandInside)

/-- A candidate has four numerals. -/
theorem size_expression (candidate : Candidate) : candidate.expression.size = 4 := by
  rw [Expression.size, literals_expression, List.length_map]
  rfl

/-- A candidate of cards that comes to 24 exactly is computed as 24, unless it is listed. -/
theorem standsFor_of_exact (cards : ∀ operand ∈ candidate.operands.toList, operand ∈ cardValues)
    (result : candidate.expression.rational? = some 24) (notMissed : candidate ∉ missed) :
    candidate.directValue.StandsFor 24 := by
  obtain ⟨⟨a, b, c, d⟩, first, second, third, shape⟩ := candidate
  have firstCard : a ∈ cardValues := cards a (by simp [Four.toList])
  have secondCard : b ∈ cardValues := cards b (by simp [Four.toList])
  have thirdCard : c ∈ cardValues := cards c (by simp [Four.toList])
  have fourthCard : d ∈ cardValues := cards d (by simp [Four.toList])
  cases shape with
  | pairs =>
      obtain ⟨leftValue, rightValue, leftExact, rightExact, result⟩ :=
        Expression.rational?_apply_eq_some_iff.mp result
      rw [rational?_pair] at leftExact rightExact
      exact Operator.standsFor_of_pairs firstCard secondCard thirdCard fourthCard leftExact rightExact
        result notMissed
  | chain =>
      obtain ⟨value, last, valueExact, lastExact, result⟩ :=
        Expression.rational?_apply_eq_some_iff.mp result
      cases (rational?_ofNat d).symm.trans lastExact
      obtain ⟨pairValue, other, pairExact, otherExact, triple⟩ :=
        Expression.rational?_apply_eq_some_iff.mp valueExact
      cases (rational?_ofNat c).symm.trans otherExact
      rw [rational?_pair] at pairExact
      refine Operator.standsFor_of_triple false firstCard secondCard thirdCard fourthCard
        pairExact triple result ?_
      rintro rfl rfl
      exact notMissed
  | nested =>
      obtain ⟨value, last, valueExact, lastExact, result⟩ :=
        Expression.rational?_apply_eq_some_iff.mp result
      cases (rational?_ofNat d).symm.trans lastExact
      obtain ⟨other, pairValue, otherExact, pairExact, triple⟩ :=
        Expression.rational?_apply_eq_some_iff.mp valueExact
      cases (rational?_ofNat a).symm.trans otherExact
      rw [rational?_pair] at pairExact
      refine Operator.standsFor_of_triple true secondCard thirdCard firstCard fourthCard
        pairExact triple result ?_
      rintro rfl rfl
      exact notMissed

/-- The missed candidates are not computed as 24. -/
theorem directValue_of_mem_missed : ∀ candidate ∈ missed,
    candidate.directValue.equals Settings.standard.target = false := by
  decide +kernel

/-- A candidate of cards is computed as 24 if it comes to 24 exactly and is not listed. -/
theorem equals_directValue_iff
    (cards : ∀ operand ∈ candidate.operands.toList, operand ∈ cardValues) :
    candidate.directValue.equals Settings.standard.target = true ↔
      candidate.expression.rational? = some 24 ∧ candidate ∉ missed := by
  constructor
  · intro same
    constructor
    · have accepted := Settings.accepts_of_equals same Settings.standard_target_standsFor.1
        (by decide +kernel)
      rw [← value_expression] at accepted
      exact ((ofCards_expression cards).accepts_iff candidate.size_expression).mp accepted
    · intro listed
      rw [directValue_of_mem_missed candidate listed] at same
      cases same
  · rintro ⟨result, notMissed⟩
    exact ((standsFor_of_exact cards result notMissed).equals_iff
      Settings.standard_target_standsFor).mpr rfl

/-- Candidates of the hands of the listed ones that come to 24 and are not listed. -/
def rescues : List Candidate :=
  withOperators .mul .mul .add .chain [⟨1, 3, 5, 9⟩] ++
  withOperators .div .mul .mul .chain [⟨1, 5, 10, 12⟩] ++
  withOperators .sub .add .add .chain [⟨6, 1, 9, 10⟩] ++
  withOperators .add .add .add .chain [⟨2, 5, 5, 12⟩] ++
  withOperators .sub .mul .sub .chain [⟨5, 2, 10, 6⟩] ++
  withOperators .add .sub .mul .chain [⟨2, 10, 10, 12⟩, ⟨2, 11, 11, 12⟩, ⟨3, 5, 5, 8⟩,
    ⟨4, 5, 5, 6⟩, ⟨9, 9, 12, 4⟩] ++
  withOperators .sub .mul .add .chain [⟨5, 3, 10, 4⟩] ++
  withOperators .mul .add .sub .chain [⟨3, 8, 10, 10⟩, ⟨3, 8, 11, 11⟩, ⟨4, 6, 10, 10⟩,
    ⟨4, 6, 11, 11⟩] ++
  withOperators .mul .div .mul .chain [⟨4, 5, 10, 12⟩] ++
  withOperators .sub .mul .mul .chain [⟨9, 8, 4, 6⟩] ++
  withOperators .mul .sub .sub .chain [⟨5, 8, 6, 10⟩] ++
  withOperators .mul .sub .mul .pairs [⟨4, 9, 3, 4⟩, ⟨7, 9, 3, 13⟩]

/-- Every hand of a listed candidate has another one. -/
theorem exists_rescue : ∀ candidate ∈ missed, ∃ other ∈ rescues,
    other.operands ∈ candidate.operands.arrangements ∧ other.expression.rational? = some 24 ∧
      other ∉ missed := by
  decide +kernel

end Candidate

namespace Solver

variable {hand : Hand} {candidate : Candidate}

/-- The operands of a candidate for a hand are card values. -/
theorem mem_cardValues_of_mem_candidates (listed : candidate ∈ candidates hand) :
    ∀ operand ∈ candidate.operands.toList, operand ∈ cardValues := fun operand inside =>
  mem_cardValues.mpr (hand.inRange operand ((mem_candidates_iff_perm.mp listed).subset inside))

/-- The text of a candidate is among the solutions exactly if its value is the target. -/
theorem text_mem_solutions_iff_equals (target : Binary64) (listed : candidate ∈ candidates hand) :
    candidate.text ∈ solutions target hand ↔ candidate.directValue.equals target = true := by
  rw [mem_solutions_iff]
  constructor
  · rintro ⟨other, -, same, written⟩
    have value := other.evaluate_text
    rw [written, candidate.evaluate_text] at value
    rwa [Except.ok.inj value]
  · intro same
    exact ⟨candidate, listed, same, rfl⟩

/-- Of the 4608 candidates of a hand, the search lists the texts of those that come to 24 in rational
arithmetic, except for 34 candidates which rounding makes miss it. Their hands have other solutions,
so that the search finds nothing exactly if no candidate comes to 24. -/
theorem text_mem_solutions_iff (hand : Hand) :
    (candidates hand).length = 4608 ∧ Candidate.missed.length = 34 ∧
      (∀ candidate ∈ candidates hand, candidate.text ∈ solutions Settings.standard.target hand ↔
        candidate.expression.rational? = some 24 ∧ candidate ∉ Candidate.missed) ∧
      (solve Settings.standard.target hand = none ↔
        ∀ candidate ∈ candidates hand, candidate.expression.rational? ≠ some 24) := by
  have found (candidate : Candidate) (listed : candidate ∈ candidates hand) :
      candidate.text ∈ solutions Settings.standard.target hand ↔
        candidate.expression.rational? = some 24 ∧ candidate ∉ Candidate.missed := by
    rw [text_mem_solutions_iff_equals _ listed]
    exact Candidate.equals_directValue_iff (mem_cardValues_of_mem_candidates listed)
  refine ⟨?_, by decide, found, ?_⟩
  · exact length_candidates hand
  · rw [solve_eq_head?, List.head?_eq_none_iff]
    constructor
    · -- What comes to 24 unseen is listed, and then the hand has another candidate that is seen.
      intro nothing candidate listed result
      have unlisted (other : Candidate) (inside : other ∈ candidates hand)
          (otherResult : other.expression.rational? = some 24) : other ∈ Candidate.missed := by
        by_contra notMissed
        have text := (found other inside).mpr ⟨otherResult, notMissed⟩
        rw [nothing] at text
        cases text
      obtain ⟨other, -, arranged, otherResult, notMissed⟩ :=
        Candidate.exists_rescue candidate (unlisted candidate listed result)
      have otherListed := mem_candidates_iff.mpr
        (Four.arrangements_trans (mem_candidates_iff.mp listed) arranged)
      exact notMissed (unlisted other otherListed otherResult)
    · intro none
      refine List.eq_nil_iff_forall_not_mem.mpr fun text inside => ?_
      obtain ⟨candidate, listed, -, rfl⟩ := mem_solutions_iff.mp inside
      exact none candidate listed ((found candidate listed).mp inside).1

/-- A fifth is rounded, and still the candidate is found. -/
theorem text_mem_solutions_fifth :
    (⟨⟨1, 5, 10, 12⟩, .div, .mul, .mul, .chain⟩ : Candidate).text ∈
      solutions Settings.standard.target ⟨⟨1, 12, 10, 5⟩, by decide⟩ :=
  ((text_mem_solutions_iff ⟨⟨1, 12, 10, 5⟩, by decide⟩).2.2.1
    ⟨⟨1, 5, 10, 12⟩, .div, .mul, .mul, .chain⟩
    (by decide +kernel)).mpr ⟨by decide +kernel, by decide +kernel⟩

/-- Nine times the sum of one and five thirds is 24, but it is computed as 24.000000000000004. -/
theorem text_not_mem_solutions_thirds :
    ∃ candidate ∈ candidates ⟨⟨1, 5, 3, 9⟩, by decide⟩, candidate.text = "(1+(5/3))*9" ∧
      candidate.expression.rational? = some 24 ∧
        candidate.text ∉ solutions Settings.standard.target ⟨⟨1, 5, 3, 9⟩, by decide⟩ := by
  have listed : (⟨⟨1, 5, 3, 9⟩, .add, .div, .mul, .nested⟩ : Candidate) ∈
      candidates ⟨⟨1, 5, 3, 9⟩, by decide⟩ := by decide +kernel
  refine ⟨_, listed, by decide +kernel, by decide +kernel, ?_⟩
  rw [text_mem_solutions_iff_equals _ listed]
  decide +kernel

end Solver

end FourCards
