/-
This file proves that the numbers a player is told of can be entered as answers: the text of a finite
number is evaluated to that number, so that messages tell different numbers by different texts.
-/

import FourCards.Game.Outcome
import FourCards.Proofs.Grammar.Decimal

namespace FourCards

namespace Outcome

/-- The number that a message tells: the target of a success, and the value of a miss. -/
def told? : Outcome → Option Binary64
  | numericResult _ target true => some target
  | numericResult value _ false => some value
  | _ => none

/-- The words before the number that a message tells. -/
def opening (outcome : Outcome) : String :=
  if outcome.isSuccess then "Correct! Your expression evaluates to "
  else "Your expression evaluates to "

/-- The words after the number that a message tells. -/
def closing (outcome : Outcome) : String :=
  if outcome.isSuccess then "." else ". Try again."

variable {outcome other : Outcome} {value otherValue : Binary64}

/-- The message has the value between the words of its opening and its closing. -/
theorem message_of_told (told : outcome.told? = some value) :
    outcome.message = outcome.opening ++ value.text ++ outcome.closing := by
  cases outcome with
  | numericResult result target matchesTarget =>
      cases matchesTarget with
      | true =>
          obtain rfl : target = value := Option.some.inj told
          rfl
      | false =>
          obtain rfl : result = value := Option.some.inj told
          rfl
  | emptyInput => cases told
  | wrongNumbers => cases told
  | syntaxInvalid => cases told
  | nonFiniteResult => cases told

/-- A message that tells a number begins with another letter if it is that of a success. -/
theorem head?_message (told : outcome.told? = some value) :
    outcome.message.toList.head? = some (if outcome.isSuccess then 'C' else 'Y') := by
  rw [message_of_told told, opening]
  split <;> simp

/-- Messages that are the same tell their numbers by the same text. -/
theorem text_eq_of_message_eq (told : outcome.told? = some value)
    (otherTold : other.told? = some otherValue) (same : outcome.message = other.message) :
    value.text = otherValue.text := by
  have heads := head?_message told
  rw [same, head?_message otherTold, Option.some.injEq] at heads
  have success : outcome.isSuccess = other.isSuccess := by
    cases ours : outcome.isSuccess <;> cases theirs : other.isSuccess <;> simp_all
  rw [message_of_told told, message_of_told otherTold, opening, closing, opening, closing,
    success, String.append_left_inj, String.append_right_inj] at same
  exact same

/-- The text by which a message tells a finite number is evaluated to this number. Unless the sign of
the number is set, the text is a numeral, and another number without a sign is told by another
message. If the number is below zero, a zero has to come before its text. -/
theorem told_numbers_evaluated (outcome : Outcome) (value : Binary64)
    (told : outcome.told? = some value) (finite : value.isFinite = true) :
    outcome.message = outcome.opening ++ value.text ++ outcome.closing ∧
    (value.isNegative = false →
      (∃ numeral : Numeral, numeral.Spelled ∧ value.text.toList = numeral.write) ∧
      Expression.evaluate value.text = .ok value ∧
      ∀ (other : Outcome) (otherValue : Binary64), other.told? = some otherValue →
        otherValue.isFinite = true → otherValue.isNegative = false →
        outcome.message = other.message → value = otherValue) ∧
    (value.less .zero = true → Expression.evaluate ("0" ++ value.text) = .ok value) := by
  refine ⟨message_of_told told, ?_, ?_⟩
  · intro unsigned
    have evaluated := Expression.evaluate_text finite unsigned
    refine ⟨Binary64.exists_numeral finite unsigned, evaluated, ?_⟩
    intro other otherValue otherTold otherFinite otherUnsigned same
    have sameText := text_eq_of_message_eq told otherTold same
    have otherEvaluated := Expression.evaluate_text otherFinite otherUnsigned
    rw [← sameText, evaluated] at otherEvaluated
    exact Except.ok.inj otherEvaluated
  · exact Expression.evaluate_zero_append_text finite

/-- The least number above zero, whose text has 323 zeros after its point, and its negation. -/
theorem told_numbers_evaluated_least :
    let least : Binary64 := .finite false 1 ⟨1, 0, by decide, by decide, rfl⟩
    Expression.evaluate least.text = .ok least ∧
      Expression.evaluate ("0" ++ least.negate.text) = .ok least.negate := by
  intro least
  have above := told_numbers_evaluated (.numericResult least .zero false) least rfl rfl
  have below := told_numbers_evaluated (.numericResult least.negate least.negate true) least.negate
    rfl rfl
  exact ⟨(above.2.1 rfl).2.1, below.2.2 (by decide)⟩

end Outcome

end FourCards
