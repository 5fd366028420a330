/-
This file proves that whatever the search offers to a player is accepted as an answer, for a game
after any run of requests as well as for a hand and for values of which a hand is made.
-/

import FourCards.Game.Values
import FourCards.Proofs.Binary64.Comparison
import FourCards.Proofs.Game.Session
import FourCards.Proofs.Game.Verification
import FourCards.Proofs.Search.Arrangements
import FourCards.Proofs.Search.Direct

namespace FourCards

/-- The answer comes to the target and is accepted. -/
def Outcome.Meets (outcome : Outcome) (target : Binary64) : Prop :=
  ∃ value, outcome = numericResult value target true ∧ value.equals target = true

namespace Candidate

variable {hand : Hand} {candidate : Candidate}

/-- A candidate uses the numbers of the hand. -/
theorem numbers_perm (listed : candidate ∈ Solver.candidates hand) :
    (Text.numbers candidate.text.toList).Perm hand.toList := by
  have operands := Solver.mem_candidates_iff_perm.mp listed
  have uncapped : ∀ operand ∈ candidate.operands.toList, operand ≤ Text.largestNumber := by
    intro operand inside
    have bound := (hand.inRange operand (operands.mem_iff.mp inside)).2
    exact Nat.le_trans bound (by decide)
  rw [candidate.numbers_text uncapped]
  exact operands

/-- A candidate is judged by its direct value. -/
theorem verify_text (settings : Settings) (listed : candidate ∈ Solver.candidates hand)
    (finite : candidate.directValue.isFinite = true) :
    hand.verify settings candidate.text =
      .numericResult candidate.directValue settings.target
        (settings.accepts candidate.directValue) := by
  rw [hand.verify_of_evaluate settings candidate.text_not_isBlank (numbers_perm listed)
    candidate.evaluate_text, if_pos finite]

end Candidate

/-- The hint is one of the solutions. -/
theorem Solver.mem_solutions_of_hint {target : Binary64} {hand : Hand} {text : String}
    (found : hint target hand = .found text) : text ∈ solutions target hand := by
  unfold hint at found
  cases search : solve target hand with
  | none =>
      rw [search] at found
      cases found
  | some first =>
      rw [search] at found
      cases found
      rw [solve_eq_head?] at search
      exact List.mem_of_head? search

namespace Hand

variable (hand : Hand) {settings : Settings}

/-- Every solution for a finite target is accepted under every positive tolerance. -/
theorem verify_solution (finite : settings.target.isFinite = true)
    (positive : Binary64.zero.less settings.tolerance = true) {text : String}
    (listed : text ∈ Solver.solutions settings.target hand) :
    (hand.verify settings text).Meets settings.target := by
  obtain ⟨candidate, tried, same, rfl⟩ := Solver.mem_solutions_iff.mp listed
  have evaluated := candidate.verify_text settings tried (Binary64.isFinite_of_equals same finite)
  rw [Settings.accepts_of_equals same finite positive] at evaluated
  exact ⟨candidate.directValue, evaluated, same⟩

/-- A hint for a finite target is accepted under every positive tolerance, and so is a solution. -/
theorem verify_offered (finite : settings.target.isFinite = true)
    (positive : Binary64.zero.less settings.tolerance = true) {text : String}
    (offered : Solver.hint settings.target hand = .found text ∨
      text ∈ Solver.solutions settings.target hand) :
    (hand.verify settings text).Meets settings.target := by
  cases offered with
  | inl found => exact hand.verify_solution finite positive (Solver.mem_solutions_of_hint found)
  | inr listed => exact hand.verify_solution finite positive listed

end Hand

/-- The standard settings have a finite target and a positive tolerance. -/
theorem Settings.standard_attainable :
    standard.target.isFinite = true ∧ Binary64.zero.less standard.tolerance = true := by
  decide +kernel

/-- The answer that the standard search offers for a hand is accepted. -/
theorem Hand.verifyStandard_offered (hand : Hand) {text : String}
    (offered : hand.hintStandard = .found text ∨
      text ∈ Solver.solutions Settings.standard.target hand) :
    (hand.verifyStandard text).Meets Settings.standard.target :=
  hand.verify_offered Settings.standard_attainable.1 Settings.standard_attainable.2 offered

/-- Values in range make a hand. -/
theorem Hand.exists_ofValues {values : Four Nat}
    (inRange : ∀ value ∈ values.toList, 1 ≤ value ∧ value ≤ 13) :
    ∃ hand, ofValues values = .ok hand :=
  ⟨⟨values, inRange⟩, ofValuesValues ⟨values, inRange⟩⟩

/-- For a game with a finite target and a positive tolerance, from whatever source it is dealt and
whatever was asked of it, its hint and each of its solutions is accepted as coming to the target. So
are those for a hand, and those for values in range, by the standard settings. -/
theorem offered_answers_accepted :
    (∀ (σ : Type) [WordSource σ] (settings : Settings) (source : σ) (requests : List Request)
      (text : String),
      settings.target.isFinite = true → Binary64.zero.less settings.tolerance = true →
      ((Session.start settings source).after requests).hint = .found text ∨
        text ∈ ((Session.start settings source).after requests).solutions →
      (((Session.start settings source).after requests).verify text).Meets settings.target) ∧
    (∀ (hand : Hand) (text : String),
      hand.hintStandard = .found text ∨ text ∈ Solver.solutions Settings.standard.target hand →
      (hand.verifyStandard text).Meets Settings.standard.target) ∧
    ∀ values : Four Nat, (∀ value ∈ values.toList, 1 ≤ value ∧ value ≤ 13) →
      ∃ hint, Hand.hintValues values = .ok hint ∧
        ∀ text, hint = .found text →
          ∃ outcome, Hand.verifyValues values text = .ok outcome ∧
            outcome.Meets Settings.standard.target := by
  refine ⟨?_, fun hand text offered => hand.verifyStandard_offered offered, ?_⟩
  · intro σ _ settings source requests text finite positive offered
    have follows := Session.after_follows (Session.start_follows settings source) requests
    rw [Session.hint, Session.solutions, follows.searched] at offered
    rw [Session.verify, follows.judged]
    exact Hand.verify_offered _ finite positive offered
  · intro values inRange
    obtain ⟨hand, dealt⟩ := Hand.exists_ofValues inRange
    refine ⟨hand.hintStandard, ?_, fun text found => ⟨hand.verifyStandard text, ?_, ?_⟩⟩
    · rw [Hand.hintValues, dealt, Except.map]
    · rw [Hand.verifyValues, dealt, Except.map]
    · exact hand.verifyStandard_offered (.inl found)

/-- A game for the negative zero is offered answers that come to the positive one. One of the answers for
each hand is its hint and the other is found later by the search. -/
theorem offered_answers_accepted_negativeZero :
    (∃ session : Session Source,
      session = (Session.start ⟨Binary64.zero.negate, Binary64.ofNat 1⟩ (.congruential 35)).after
        [.hint, .newHand] ∧
      session.hint = .found "(9+11)-(7+13)" ∧
      (session.verify "(9+11)-(7+13)").Meets Binary64.zero.negate ∧
      "((13-9)-11)+7" ∈ session.solutions ∧
      (session.verify "((13-9)-11)+7").Meets Binary64.zero.negate) ∧
    (∃ hand : Hand, hand.values = ⟨12, 1, 12, 1⟩ ∧ hand.hintStandard = .found "(12+1)+(12-1)" ∧
      (hand.verifyStandard "(12+1)+(12-1)").Meets Settings.standard.target ∧
      "(12+12)/(1*1)" ∈ Solver.solutions Settings.standard.target hand ∧
      (hand.verifyStandard "(12+12)/(1*1)").Meets Settings.standard.target) ∧
    Hand.hintValues ⟨4, 6, 6, 8⟩ = .ok (.found "(4+6)+(6+8)") ∧
    ∃ outcome, Hand.verifyValues ⟨4, 6, 6, 8⟩ "(4+6)+(6+8)" = .ok outcome ∧
      outcome.Meets Settings.standard.target := by
  obtain ⟨games, hands, values⟩ := offered_answers_accepted
  let settings : Settings := ⟨Binary64.zero.negate, Binary64.ofNat 1⟩
  have judged (text : String) := games Source settings (.congruential 35) [.hint, .newHand] text
    (by decide +kernel) (by decide +kernel)
  have dealt : (Session.start settings (Source.congruential 35)).after [.hint, .newHand] =
    .dealtTwice settings := Session.newHand_congruential settings
  refine ⟨⟨_, dealt.symm, ?_⟩, ⟨⟨⟨12, 1, 12, 1⟩, by decide⟩, rfl, ?_⟩, ?_⟩
  · rw [dealt] at judged
    have found : (Session.dealtTwice settings).hint = .found "(9+11)-(7+13)" := by
      decide +kernel
    have listed : "((13-9)-11)+7" ∈ (Session.dealtTwice settings).solutions :=
      Solver.mem_solutions_iff.mpr ⟨⟨⟨13, 9, 11, 7⟩, .sub, .sub, .add, .chain⟩,
        Solver.mem_candidates_iff_perm.mpr (by decide), by decide +kernel, rfl⟩
    exact ⟨found, judged _ (.inl found), listed, judged _ (.inr listed)⟩
  · have found : Hand.hintStandard ⟨⟨12, 1, 12, 1⟩, by decide⟩ = .found "(12+1)+(12-1)" := by
      decide +kernel
    have listed : "(12+12)/(1*1)" ∈
        Solver.solutions Settings.standard.target ⟨⟨12, 1, 12, 1⟩, by decide⟩ :=
      Solver.mem_solutions_iff.mpr ⟨⟨⟨12, 12, 1, 1⟩, .add, .div, .mul, .pairs⟩,
        Solver.mem_candidates_iff_perm.mpr (by decide), by decide +kernel, rfl⟩
    exact ⟨found, hands _ _ (.inl found), listed, hands _ _ (.inr listed)⟩
  · have found : Hand.hintValues ⟨4, 6, 6, 8⟩ = .ok (.found "(4+6)+(6+8)") := by decide +kernel
    obtain ⟨hint, given, accepted⟩ := values ⟨4, 6, 6, 8⟩ (by decide)
    exact ⟨found, accepted _ (Except.ok.inj (given.symm.trans found))⟩

end FourCards
