/-
This file proves that an answer without points is a success under the usual settings exactly if it
uses the values of the hand and comes to 24 in rational arithmetic.
-/

import FourCards.Proofs.Exact.Division
import FourCards.Proofs.Grammar.Numbers

namespace FourCards

open Binary64 Grammar

namespace Settings

/-- The standard target is exactly 24. -/
theorem standard_target_standsFor : standard.target.StandsFor 24 := by
  have stands := @ofNat_standsFor 24 (by decide)
  rw [Nat.cast_ofNat] at stands
  simp only [standard]
  exact stands

/-- The standard tolerance is a thousandth, rounded. -/
theorem standard_tolerance_standsFor : standard.tolerance.StandsFor (rounded (1 / 1000)) := by
  have thousand : (((1 : Nat) : ℚ) / 10 ^ 3) = 1 / 1000 := by norm_num
  have stands := @ofDecimal_standsFor 1 3 (by rw [thousand]; norm_num)
  rw [thousand] at stands
  simp only [standard]
  exact stands

/-- A number is accepted if its distance from 24, rounded, is below the rounded tolerance. -/
theorem accepts_standard_iff {value : Binary64} {number : ℚ} (stands : value.StandsFor number)
    (bound : |number - 24| ≤ 2 ^ 64) :
    standard.accepts value = true ↔ |rounded (number - 24)| < rounded (1 / 1000) :=
  (stands.sub standard_target_standsFor bound).abs.less_iff standard_tolerance_standsFor

/-- The rounded tolerance lies between two powers of two. -/
theorem rounded_tolerance : 1 / 2 ^ 10 < rounded (1 / 1000) ∧ rounded (1 / 1000) < 1 / 2 ^ 9 := by
  have close := (abs_rounded_sub_le (1 / 1000)).trans (roundoff_le _)
  rw [abs_of_pos (by norm_num : (0 : ℚ) < 1 / 1000), abs_le] at close
  constructor <;> linarith

/-- What is close to 24 is accepted. -/
theorem accepts_standard_of_close {value : Binary64} (near : value.Near 24 (1 / 2 ^ 12)) :
    standard.accepts value = true := by
  obtain ⟨actual, stands, close⟩ := near
  have off := (abs_rounded_sub_le (actual - 24)).trans (roundoff_le _)
  have apart := abs_sub_abs_le_abs_sub (rounded (actual - 24)) (actual - 24)
  rw [accepts_standard_iff stands (close.trans (by norm_num))]
  linarith [rounded_tolerance.1]

/-- What stands for a number far from 24 is not accepted. -/
theorem not_accepts_standard_of_far {value : Binary64} {number : ℚ}
    (stands : value.StandsFor number) (far : 1 / 2 ^ 8 ≤ |number - 24|)
    (bound : |number - 24| ≤ 2 ^ 64) : standard.accepts value = false := by
  have off := (abs_rounded_sub_le (number - 24)).trans (roundoff_le _)
  have apart := abs_sub_abs_le_abs_sub (number - 24) (rounded (number - 24))
  rw [abs_sub_comm (number - 24) (rounded _)] at apart
  rw [← Bool.not_eq_true, accepts_standard_iff stands bound]
  linarith [rounded_tolerance.2]

/-- What is not finite is not accepted for a finite target. -/
theorem accepts_of_not_isFinite {settings : Settings} {value : Binary64}
    (notFinite : value.isFinite = false) (target : settings.target.isFinite = true) :
    settings.accepts value = false := by
  simp only [accepts]
  generalize settings.target = goal at target
  generalize settings.tolerance = allowed
  cases value with
  | finite => cases notFinite
  | nan => cases goal <;> cases allowed <;> rfl
  | infinity =>
      cases goal with
      | finite => cases allowed <;> rfl
      | nan => cases target
      | infinity => cases target

end Settings

namespace Expression

/-- An expression of four cards is accepted exactly if it comes to 24 exactly. -/
theorem OfCards.accepts_iff {expression : Expression} (cards : expression.OfCards)
    (four : expression.size = 4) :
    Settings.standard.accepts expression.value = true ↔ expression.rational? = some 24 := by
  cases result : expression.rational? with
  | none =>
      -- A division by zero may go unseen, but then it leaves zero behind, which is far from 24.
      have refused : Settings.standard.accepts expression.value = false := by
        rcases cards.not_isFinite_or_standsFor_zero four result with notFinite | zero
        · exact Settings.accepts_of_not_isFinite notFinite
            Settings.standard_target_standsFor.1
        · exact Settings.not_accepts_standard_of_far zero (by norm_num) (by norm_num)
      simp [refused]
  | some value =>
      obtain ⟨actual, stands, close⟩ := cards.near four.le result
      have bound := cards.abs_le result
      rw [four] at close bound
      norm_num [errorBound, valueBound] at close bound
      rw [Option.some.injEq]
      -- The error is below the tolerance, and the tolerance below the distance of other values from 24.
      rcases cards.eq_or_le_abs_sub four result with rfl | far
      · simp only [iff_true]
        exact Settings.accepts_standard_of_close ⟨actual, stands, by norm_num; exact close⟩
      · have other : value ≠ 24 := by
          rintro rfl
          norm_num at far
        have refused : Settings.standard.accepts expression.value = false := by
          refine Settings.not_accepts_standard_of_far stands ?_ ?_
          · have apart := abs_sub_abs_le_abs_sub (value - 24) (actual - 24)
            rw [sub_sub_sub_cancel_right, abs_sub_comm value actual] at apart
            linarith
          · have apart := abs_add_le (actual - value) (value - 24)
            have away := abs_sub value 24
            rw [sub_add_sub_cancel] at apart
            norm_num at away
            linarith
        simp [refused, other]

end Expression

/-- A text without digits has no numbers. -/
theorem Text.digitRuns_eq_nil {text : List Char}
    (noDigit : ∀ character ∈ text, character.isDigit = false) : digitRuns text = [] := by
  induction text with
  | nil => exact digitRuns_nil
  | cons character tail inductionHypothesis =>
      rw [digitRuns_cons character tail (noDigit character (List.mem_cons_self ..))]
      exact inductionHypothesis fun other inside => noDigit other (List.mem_cons_of_mem _ inside)

/-- Control characters are no digits. -/
theorem Text.isDigit_of_control {character : Char} (control : isAsciiControl character = true) :
    character.isDigit = false := by
  by_contra digit
  simp only [isAsciiControl, Char.isDigit, Char.toNat, Bool.or_eq_true, Bool.and_eq_true,
    Bool.not_eq_false, decide_eq_true_eq, ge_iff_le, UInt32.le_iff_toNat_le] at control digit
  have lower : 48 ≤ character.val.toNat := digit.1
  have upper : character.val.toNat ≤ 57 := digit.2
  omega

/-- Only a value that matches the target is a success. -/
theorem Outcome.exists_of_isSuccess {outcome : Outcome} (success : outcome.isSuccess = true) :
    ∃ value target, outcome = numericResult value target true := by
  cases outcome with
  | numericResult value target matchesTarget => exact ⟨value, target, congrArg _ success⟩
  | _ => cases success

namespace Hand

variable {hand : Hand} {settings : Settings} {text : String}

/-- What uses the values of a hand is not blank. -/
theorem not_isBlank (usage : (Text.numbers text.toList).Perm hand.toList) :
    isBlank text = false := by
  by_contra blank
  have noDigit : ∀ character ∈ text.toList, character.isDigit = false := by
    intro character inside
    rw [Bool.not_eq_false, isBlank, List.all_eq_true] at blank
    rcases Bool.or_eq_true_iff.mp (blank character inside) with blank | control
    · exact Text.isDigit_of_blank blank
    · exact Text.isDigit_of_control control
  have count := usage.length_eq
  rw [Text.numbers_eq_map, Text.digitRuns_eq_nil noDigit] at count
  cases count

/-- An answer is a success if it is evaluated to a finite number that is accepted. -/
theorem isSuccess_verify_iff : (hand.verify settings text).isSuccess = true ↔
    ∃ value, (hand.verify settings text).value? = some value ∧ value.isFinite = true ∧
      settings.accepts value = true := by
  constructor
  · intro success
    obtain ⟨value, target, verdict⟩ := Outcome.exists_of_isSuccess success
    have evaluated := congrArg Outcome.value? verdict
    obtain ⟨notBlank, usage, result⟩ := (hand.value?_verify_eq_some_iff settings).mp evaluated
    refine ⟨value, evaluated, ?_⟩
    rw [hand.verify_of_evaluate settings notBlank usage result] at verdict
    split at verdict
    · rename_i finite
      exact ⟨finite, (Outcome.numericResult.inj verdict).2.2⟩
    · cases verdict
  · rintro ⟨value, evaluated, finite, accepted⟩
    obtain ⟨notBlank, usage, result⟩ := (hand.value?_verify_eq_some_iff settings).mp evaluated
    rw [hand.verify_of_evaluate settings notBlank usage result, if_pos finite]
    exact accepted

/-- The values of a hand are those of cards. -/
theorem ofCards_of_perm {expression : Expression}
    (whole : ∀ numeral ∈ expression.literals, numeral.decimals = [])
    (usage : (expression.literals.map fun numeral => Text.numberOf numeral.whole).Perm hand.toList) :
    expression.OfCards := by
  intro numeral inside
  exact ⟨whole numeral inside, hand.inRange _ (usage.subset (List.mem_map_of_mem inside))⟩

/-- An answer without points is a success exactly if it is derived by the grammar, with at most 256
parentheses open at once, from the values of the hand, each once, and comes to 24 in rational
arithmetic without a division by zero. -/
theorem isSuccess_verify_standard_iff (hand : Hand) (text : String)
    (unbroken : Text.Unbroken text.toList) (noPoint : '.' ∉ text.toList) :
    (hand.verify .standard text).isSuccess = true ↔
      ∃ derivation : Derivation (.complete .expression),
        derivation.text = Text.strip text.toList ∧ derivation.depth ≤ 256 ∧
          (derivation.literals.map fun numeral => Text.numberOf numeral.whole).Perm hand.toList ∧
            derivation.tree.rational? = some 24 := by
  rw [isSuccess_verify_iff]
  constructor
  · rintro ⟨value, evaluated, -, accepted⟩
    obtain ⟨tree, parsed, four, whole, usage⟩ :=
      hand.literals_of_evaluated .standard unbroken noPoint evaluated
    obtain ⟨-, -, result⟩ := (hand.value?_verify_eq_some_iff .standard).mp evaluated
    rw [Expression.evaluate, parsed, Except.map] at result
    cases result
    obtain ⟨derivation, derived, shallow, rfl⟩ := Expression.ofText_eq_ok_iff.mp parsed
    refine ⟨derivation, derived, shallow, derivation.literals_tree ▸ usage, ?_⟩
    exact ((ofCards_of_perm whole usage).accepts_iff four).mp accepted
  · rintro ⟨derivation, derived, shallow, usage, result⟩
    have stripped : '.' ∉ derivation.text := by
      rw [derived]
      exact fun inside => noPoint (List.mem_of_mem_filter inside)
    have whole := derivation.decimals_of_noPoint stripped
    have numbers : (Text.numbers text.toList).Perm hand.toList := by
      rw [Text.numbers_of_derivation unbroken derivation derived]
      exact (hand.numerals_perm_iff whole).mpr usage
    have evaluated : Expression.evaluate text = .ok derivation.tree.value := by
      rw [Expression.evaluate, Expression.ofText_eq_ok_iff.mpr ⟨derivation, derived, shallow, rfl⟩,
        Except.map]
    rw [← derivation.literals_tree] at whole usage
    have four : derivation.tree.size = 4 := by
      have count := usage.length_eq
      rwa [List.length_map] at count
    have accepted := ((ofCards_of_perm whole usage).accepts_iff four).mpr result
    refine ⟨_, (hand.value?_verify_eq_some_iff .standard).mpr
      ⟨not_isBlank numbers, numbers, evaluated⟩, ?_, accepted⟩
    by_contra notFinite
    rw [Settings.accepts_of_not_isFinite (Bool.not_eq_true _ ▸ notFinite)
      Settings.standard_target_standsFor.1] at accepted
    cases accepted

/-- An answer that needs thirds: these are rounded, so that it comes to 23.99999999999999. -/
theorem isSuccess_verify_standard_thirds :
    ((⟨⟨3, 3, 8, 8⟩, by decide⟩ : Hand).verify .standard "8 / (3 - 8/3)").isSuccess = true ∧
      ∃ derivation : Derivation (.complete .expression),
        derivation.text = Text.strip "8 / (3 - 8/3)".toList ∧ derivation.depth ≤ 256 ∧
          (derivation.literals.map fun numeral => Text.numberOf numeral.whole).Perm [3, 3, 8, 8] ∧
            derivation.tree.rational? = some 24 := by
  have agreement := isSuccess_verify_standard_iff ⟨⟨3, 3, 8, 8⟩, by decide⟩ "8 / (3 - 8/3)"
    (by decide +kernel) (by decide +kernel)
  have success : ((⟨⟨3, 3, 8, 8⟩, by decide⟩ : Hand).verify .standard "8 / (3 - 8/3)").isSuccess =
      true := by decide +kernel
  exact ⟨success, agreement.mp success⟩

end Hand

end FourCards
