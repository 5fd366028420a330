/-
This file proves that the readers of expressions look at one character beyond what they use up: what
stands after that character changes neither what is read nor where and why reading fails.
-/

import FourCards.Proofs.Grammar.Numeral

namespace FourCards

namespace Failure

/-- The text from where reading failed. -/
def unread : Failure → List Char
  | unexpected unread | unclosed unread | trailing unread | tooDeep unread => unread

/-- The same failure in front of another text. -/
def before (other : List Char) : Failure → Failure
  | unexpected _ => unexpected other
  | unclosed _ => unclosed other
  | trailing _ => trailing other
  | tooDeep _ => tooDeep other

end Failure

/-- A value with the text after it, or a failure. -/
abbrev Reading (α : Type) := Except Failure (α × List Char)

namespace Reading

variable {α : Type}

/-- The text that was not used up. -/
def unread : Reading α → List Char
  | .error failure => failure.unread
  | .ok (_, unread) => unread

/-- The same value or failure in front of another text. -/
def before (other : List Char) : Reading α → Reading α
  | .error failure => .error (failure.before other)
  | .ok (value, _) => .ok (value, other)

end Reading

/-- What is read of a text, and where reading stops, is settled by what is used up and the next
character. -/
def LooksAhead {α : Type} (read : List Char → Reading α) : Prop :=
  ∀ text : List Char, ∃ consumed : List Char,
    consumed ++ (read text).unread = text ∧
      ∀ other : List Char, other.head? = (read text).unread.head? →
        read (consumed ++ other) = (read text).before other

namespace Text

/-- Whether a run of digits ends is up to the next character. -/
theorem EndsRun.of_head? {unread other : List Char} (ends : EndsRun unread)
    (same : other.head? = unread.head?) : EndsRun other := by
  rwa [EndsRun, same]

/-- Every text is a run of digits and a text that does not go on with one. -/
theorem exists_run (text : List Char) :
    ∃ run unread, run ++ unread = text ∧ (∀ character ∈ run, character.isDigit = true) ∧
      EndsRun unread := by
  refine ⟨text.takeWhile Char.isDigit, text.dropWhile Char.isDigit,
    List.takeWhile_append_dropWhile, takeWhile_isDigit text, ?_⟩
  intro character first
  have stopped := List.head?_dropWhile_not Char.isDigit text
  rw [Option.mem_def.mp first] at stopped
  simpa using stopped

end Text

namespace Expression

open Text

/-- Without a digit nothing is read as a numeral. -/
theorem readNumeral_endsRun {text : List Char} (ends : EndsRun text) :
    readNumeral text = .error (.unexpected text) := by
  simp only [readNumeral, ends.takeWhile, if_true]

section

variable {whole unread : List Char} (nonempty : whole ≠ [])
  (digits : ∀ character ∈ whole, character.isDigit = true)

include nonempty digits

/-- Digits that no point follows are read as a whole number. -/
theorem readNumeral_whole (ends : EndsRun unread) (noPoint : unread.head? ≠ some '.') :
    readNumeral (whole ++ unread) = .ok (literal ⟨whole, []⟩, unread) := by
  have spelled : Numeral.Spelled ⟨whole, []⟩ := ⟨nonempty, digits, by simp⟩
  have reading := readNumeral_write spelled ends fun character first same => noPoint (same ▸ first)
  simpa only [Numeral.write, if_true] using reading

/-- After digits and a point, digits have to follow. -/
theorem readNumeral_point (unread : List Char) :
    readNumeral (whole ++ '.' :: unread) =
      if unread.takeWhile Char.isDigit = [] then .error (.unexpected unread)
      else .ok (literal ⟨whole, unread.takeWhile Char.isDigit⟩,
        unread.dropWhile Char.isDigit) := by
  have ends : EndsRun ('.' :: unread) := by
    intro character first
    obtain rfl : '.' = character := by simpa using first
    decide
  simp only [readNumeral, takeWhile_run digits ends, dropWhile_run digits ends, if_neg nonempty]

end

/-- What is read as a numeral is settled by the character after it. -/
theorem readNumeral_looksAhead : LooksAhead readNumeral := by
  intro text
  -- Reading stops where a digit is missing or where a run of digits ends; the only character that the
  -- reader looks at without using it up is the one after such a run.
  obtain ⟨whole, unread, rfl, digits, ends⟩ := exists_run text
  by_cases nonempty : whole = []
  · subst nonempty
    have refused := readNumeral_endsRun ends
    refine ⟨[], ?_, fun other same => ?_⟩
    · simp only [List.nil_append, refused]
      rfl
    · simp only [List.nil_append, refused] at same ⊢
      exact readNumeral_endsRun (ends.of_head? same)
  by_cases point : unread.head? = some '.'
  · obtain ⟨tail, rfl⟩ := List.head?_eq_some_iff.mp point
    obtain ⟨decimals, rest, rfl, decimalDigits, restEnds⟩ := exists_run tail
    have read (other : List Char) (otherEnds : EndsRun other) :
        readNumeral (whole ++ '.' :: (decimals ++ other)) =
          if decimals = [] then .error (.unexpected other)
          else .ok (literal ⟨whole, decimals⟩, other) := by
      rw [readNumeral_point nonempty digits, takeWhile_run decimalDigits otherEnds,
        dropWhile_run decimalDigits otherEnds]
      split
      · rename_i none
        rw [none, List.nil_append]
      · rfl
    refine ⟨whole ++ '.' :: decimals, ?_, fun other same => ?_⟩
    · rw [read rest restEnds]
      split <;> simp [Reading.unread, Failure.unread]
    · rw [read rest restEnds] at same ⊢
      have otherEnds : EndsRun other := by
        split at same <;> exact restEnds.of_head? same
      rw [List.append_assoc, List.cons_append, read other otherEnds]
      split <;> rfl
  · refine ⟨whole, ?_, fun other same => ?_⟩
    · rw [readNumeral_whole nonempty digits ends point]
      rfl
    · rw [readNumeral_whole nonempty digits ends point] at same ⊢
      refine readNumeral_whole nonempty digits (ends.of_head? same) ?_
      rwa [same]

variable {accepts : Operator → Bool} {operand : Reader Expression}

/-- A chain goes on after an operator with what its operand reader makes of the text. -/
theorem readChain_looksAhead (looks : LooksAhead operand.read) (left : Expression) :
    LooksAhead (readChain accepts operand left) := by
  intro text
  fun_induction readChain accepts operand left text with
  | case1 left =>
      refine ⟨[], rfl, fun other same => ?_⟩
      obtain rfl := List.head?_eq_none_iff.mp same
      rw [List.nil_append, readChain]
      rfl
  | case2 left symbol tail refused =>
      refine ⟨[], rfl, fun other same => ?_⟩
      obtain ⟨otherTail, rfl⟩ := List.head?_eq_some_iff.mp same
      simp only [List.nil_append, readChain, refused]
      rfl
  | case3 left symbol tail operator found failure failed =>
      obtain ⟨consumed, joined, settled⟩ := looks tail
      rw [failed] at joined settled
      refine ⟨symbol :: consumed, congrArg (symbol :: ·) joined, fun other same => ?_⟩
      have reading := settled other same
      simp only [List.cons_append, readChain, found]
      split
      · rename_i otherFailure otherFailed
        rw [reading] at otherFailed
        cases otherFailed
        rfl
      · rename_i right rest read
        rw [reading] at read
        cases read
  | case4 left symbol tail operator found right rest read inductionHypothesis =>
      obtain ⟨operandConsumed, operandJoined, operandSettled⟩ := looks tail
      obtain ⟨consumed, joined, settled⟩ := inductionHypothesis
      rw [read] at operandJoined operandSettled
      refine ⟨symbol :: (operandConsumed ++ consumed), ?_, fun other same => ?_⟩
      · rw [List.cons_append, List.append_assoc, joined]
        exact congrArg (symbol :: ·) operandJoined
      · -- The operand looks ahead to the rest of the chain or, where that is empty, to what follows it.
        have sameHead : (consumed ++ other).head? = rest.head? := by
          rw [← joined, List.head?_append, List.head?_append, same]
        have operandReading := operandSettled (consumed ++ other) sameHead
        have reading := settled other same
        simp only [List.cons_append, List.append_assoc, readChain, found]
        split
        · rename_i otherFailure failed
          rw [operandReading] at failed
          cases failed
        · rename_i otherRight otherRest otherRead
          rw [operandReading] at otherRead
          cases otherRead
          exact reading

/-- What settles where an operand ends settles where a chain of operands ends. -/
theorem chain_looksAhead (looks : LooksAhead operand.read) :
    LooksAhead (chain accepts operand).read := by
  intro text
  obtain ⟨operandConsumed, operandJoined, operandSettled⟩ := looks text
  cases read : operand.read text with
  | error failure =>
      rw [read] at operandJoined operandSettled
      refine ⟨operandConsumed, ?_, fun other same => ?_⟩
      · simp only [chain, read]
        exact operandJoined
      · simp only [chain, read] at same ⊢
        rw [operandSettled other same]
        rfl
  | ok result =>
      obtain ⟨left, rest⟩ := result
      obtain ⟨consumed, joined, settled⟩ := readChain_looksAhead looks left rest
      rw [read] at operandJoined operandSettled
      refine ⟨operandConsumed ++ consumed, ?_, fun other same => ?_⟩
      · simp only [chain, read]
        rw [List.append_assoc, joined]
        exact operandJoined
      · simp only [chain, read] at same ⊢
        have sameHead : (consumed ++ other).head? = rest.head? := by
          rw [← joined, List.head?_append, List.head?_append, same]
        rw [List.append_assoc, operandSettled (consumed ++ other) sameHead]
        exact settled other same

variable {inner : Reader Expression}

/-- A group fails where the expression inside fails. -/
theorem parenthesized_read_error {tail : List Char} {failure : Failure}
    (failed : inner.read tail = .error failure) :
    (parenthesized inner).read ('(' :: tail) = .error failure := by
  simp only [parenthesized, failed]

/-- A closing parenthesis has to follow what is read inside. -/
theorem parenthesized_read_ok {tail rest : List Char} {value : Expression}
    (read : inner.read tail = .ok (value, rest)) :
    (parenthesized inner).read ('(' :: tail) =
      if rest.head? = some ')' then .ok (value, rest.tail) else .error (.unclosed rest) := by
  simp only [parenthesized, read]
  split
  · contradiction
  · rename_i same
    cases same
    simp
  · rename_i unclosed same
    cases same
    rw [if_neg]
    intro closing
    obtain ⟨after, rfl⟩ := List.head?_eq_some_iff.mp closing
    exact unclosed after rfl

/-- Nothing but an opening parenthesis begins a group. -/
theorem parenthesized_read_other {text : List Char} (other : text.head? ≠ some '(') :
    (parenthesized inner).read text = .error (.unexpected text) := by
  simp only [parenthesized]
  split
  · simp at other
  · rfl

/-- What settles where the expression inside ends settles where a group ends: after its closing
parenthesis, or before the character that should have been one. -/
theorem parenthesized_looksAhead (looks : LooksAhead inner.read) :
    LooksAhead (parenthesized inner).read := by
  intro text
  by_cases opens : text.head? = some '('
  · obtain ⟨tail, rfl⟩ := List.head?_eq_some_iff.mp opens
    obtain ⟨consumed, joined, settled⟩ := looks tail
    cases read : inner.read tail with
    | error failure =>
        rw [read] at joined settled
        refine ⟨'(' :: consumed, ?_, fun other same => ?_⟩
        · rw [parenthesized_read_error read]
          exact congrArg ('(' :: ·) joined
        · rw [parenthesized_read_error read] at same ⊢
          exact parenthesized_read_error (settled other same)
    | ok result =>
        obtain ⟨value, rest⟩ := result
        rw [read] at joined settled
        by_cases closes : rest.head? = some ')'
        · obtain ⟨after, rfl⟩ := List.head?_eq_some_iff.mp closes
          have reading := parenthesized_read_ok read
          rw [if_pos closes, List.tail_cons] at reading
          refine ⟨'(' :: (consumed ++ [')']), ?_, fun other same => ?_⟩
          · rw [reading, List.cons_append, List.append_assoc]
            exact congrArg ('(' :: ·) joined
          · have otherReading := parenthesized_read_ok (settled (')' :: other) rfl)
            rw [List.head?_cons, if_pos rfl, List.tail_cons] at otherReading
            rw [reading, List.cons_append, List.append_assoc]
            exact otherReading
        · have reading := parenthesized_read_ok read
          rw [if_neg closes] at reading
          refine ⟨'(' :: consumed, ?_, fun other same => ?_⟩
          · rw [reading]
            exact congrArg ('(' :: ·) joined
          · rw [reading] at same ⊢
            have otherReading := parenthesized_read_ok (settled other same)
            rwa [if_neg (fun closing => closes (same ▸ closing))] at otherReading
  · refine ⟨[], ?_, fun other same => ?_⟩
    · simp only [List.nil_append, parenthesized_read_other opens]
      rfl
    · simp only [List.nil_append, parenthesized_read_other opens] at same ⊢
      exact parenthesized_read_other (same ▸ opens)

theorem factor_read_opening (inner : Reader Expression) (tail : List Char) :
    (factor inner).read ('(' :: tail) = inner.read ('(' :: tail) := rfl

/-- What does not begin with an opening parenthesis is read as a numeral. -/
theorem factor_read_other {text : List Char} (other : text.head? ≠ some '(') :
    (factor inner).read text = readNumeral text := by
  simp only [factor]
  split
  · simp at other
  · rfl

/-- What settles where a group ends settles where a factor ends. -/
theorem factor_looksAhead (looks : LooksAhead inner.read) : LooksAhead (factor inner).read := by
  intro text
  by_cases opens : text.head? = some '('
  · obtain ⟨tail, rfl⟩ := List.head?_eq_some_iff.mp opens
    obtain ⟨consumed, joined, settled⟩ := looks ('(' :: tail)
    refine ⟨consumed, joined, fun other same => ?_⟩
    -- It may be that nothing is used up, and then the opening parenthesis is only looked ahead to.
    have sameHead : (consumed ++ other).head? = some '(' := by
      rw [List.head?_append, same, ← List.head?_append, factor_read_opening, joined, opens]
    obtain ⟨otherTail, otherText⟩ := List.head?_eq_some_iff.mp sameHead
    rw [factor_read_opening] at same ⊢
    rw [otherText, factor_read_opening, ← otherText]
    exact settled other same
  · obtain ⟨consumed, joined, settled⟩ := readNumeral_looksAhead text
    refine ⟨consumed, ?_, fun other same => ?_⟩
    · rwa [factor_read_other opens]
    · rw [factor_read_other opens] at same ⊢
      have sameHead : (consumed ++ other).head? = text.head? := by
        rw [List.head?_append, same, ← List.head?_append, joined]
      rw [factor_read_other (sameHead ▸ opens)]
      exact settled other same

theorem refusal_looksAhead : LooksAhead refusal.read :=
  fun _ => ⟨[], rfl, fun _ _ => rfl⟩

/-- What settles where a factor ends settles where an expression ends. -/
theorem expression_looksAhead (looks : LooksAhead (factor inner).read) :
    LooksAhead (expression inner).read :=
  chain_looksAhead (chain_looksAhead looks)

/-- Groups look ahead by one character, by induction on how many may be open. -/
theorem group_looksAhead (allowance : Nat) : LooksAhead (group allowance).read := by
  induction allowance with
  | zero => exact refusal_looksAhead
  | succ allowance inductionHypothesis =>
      exact parenthesized_looksAhead (expression_looksAhead (factor_looksAhead inductionHypothesis))

/-- An expression is read with one character looked ahead to. -/
theorem grammar_looksAhead : LooksAhead grammar.read :=
  expression_looksAhead (factor_looksAhead (group_looksAhead 256))

/-- A failure to parse is settled by the text before it and the next character. -/
theorem parse_looksAhead {text : List Char} {failure : Failure} (failed : parse text = .error failure) :
    ∃ consumed, consumed ++ failure.unread = text ∧
      ∀ other, other.head? = failure.unread.head? →
        parse (consumed ++ other) = .error (failure.before other) := by
  obtain ⟨consumed, joined, settled⟩ := grammar_looksAhead text
  refine ⟨consumed, ?_⟩
  simp only [parse] at failed
  split at failed
  · rename_i cause reading
    cases failed
    rw [reading] at joined settled
    refine ⟨joined, fun other same => ?_⟩
    simp only [parse, settled other same]
    rfl
  · cases failed
  · rename_i value rest remains reading
    cases failed
    rw [reading] at joined settled
    refine ⟨joined, fun other same => ?_⟩
    simp only [parse, settled other same]
    cases other with
    | nil => exact absurd (List.head?_eq_none_iff.mp same.symm) remains
    | cons character tail => rfl

end Expression

end FourCards
