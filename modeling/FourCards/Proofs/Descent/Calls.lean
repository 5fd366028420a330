/-
This file proves that every call returns what the reader of its level makes of the text from the cursor
on, at a place where the text was read up to, and with the count that it found if it returns a value.
-/

import FourCards.Proofs.Descent.Invariant

namespace FourCards

namespace Descent

open Grammar

section

variable {text tail : List Char} {position : Nat} {character : Char}

/-- The character under the cursor is the first of those that are left. -/
theorem getElem?_of_drop (unread : text.drop position = character :: tail) :
    text[position]? = some character := by
  rw [← List.head?_drop, unread, List.head?_cons]

/-- One character further, one fewer is left. -/
theorem drop_succ_of_drop (unread : text.drop position = character :: tail) :
    text.drop (position + 1) = tail := by
  rw [← List.tail_drop, unread, List.tail_cons]

/-- Where a character is left, the cursor may pass it. -/
theorem succ_le_of_drop (unread : text.drop position = character :: tail) :
    position + 1 ≤ text.length :=
  (List.getElem?_eq_some_iff.mp (getElem?_of_drop unread)).1

theorem getElem?_of_drop_nil (unread : text.drop position = []) : text[position]? = none := by
  rw [← List.head?_drop, unread, List.head?_nil]

/-- The place is found again from how many characters are left. -/
theorem length_sub_length_drop (inside : position ≤ text.length) :
    text.length - (text.drop position).length = position := by
  rw [List.length_drop, Nat.sub_sub_self inside]

/-- What is found where something else was wanted is what was not read. -/
theorem inText_unexpected_drop (inside : position ≤ text.length) :
    (Failure.unexpected (text.drop position)).inText text = unexpectedAt text position := by
  cases unread : text.drop position with
  | nil => rw [unexpectedAt, getElem?_of_drop_nil unread]; rfl
  | cons character tail =>
      have place := length_sub_length_drop inside
      rw [unread, List.length_cons] at place
      rw [unexpectedAt, getElem?_of_drop unread, Failure.inText, place]

/-- A missing closing parenthesis is reported where the cursor stands. -/
theorem inText_unclosed_drop (inside : position ≤ text.length) :
    (Failure.unclosed (text.drop position)).inText text = .mismatchedParentheses position := by
  rw [Failure.inText, length_sub_length_drop inside]

/-- What follows the expression is reported where the cursor stands. -/
theorem inText_trailing_drop (inside : position ≤ text.length) :
    (Failure.trailing (text.drop position)).inText text = .trailingInput position := by
  rw [Failure.inText, length_sub_length_drop inside]

section

variable {part unread : List Char} (joined : text.drop position = part ++ unread)

include joined

/-- Behind a part of the text, what follows the part is left. -/
theorem drop_add_of_drop : text.drop (position + part.length) = unread := by
  rw [← List.drop_drop, joined, List.drop_left]

theorem add_le_of_drop (inside : position ≤ text.length) : position + part.length ≤ text.length := by
  have length := congrArg List.length joined
  rw [List.length_drop, List.length_append] at length
  omega

/-- A part of the text is taken by its two ends. -/
theorem slice?_of_drop (inside : position ≤ text.length) :
    slice? text position (position + part.length) = some part := by
  rw [slice?, if_pos ⟨Nat.le_add_right _ _, add_le_of_drop joined inside⟩, List.drop_take, joined,
    Nat.add_sub_cancel_left, List.take_left]

end

/-- Where a run of digits ends, the cursor stands at no digit. -/
theorem any_isDigit_of_drop {unread : List Char} (joined : text.drop position = unread)
    (ends : Text.EndsRun unread) : text[position]?.any Char.isDigit = false := by
  rw [← List.head?_drop, joined]
  cases first : unread.head? with
  | none => rfl
  | some character => exact ends character first

end

/-- A call that was made with the groups open and the calls waiting has come to what was read. -/
def Answer (value : Numeral → Binary64) (text : List Char) (depth : Nat) (frames : List Frame)
    (returned : State) : Reading Expression → Prop
  | .ok (tree, rest) =>
      ∃ position ≤ text.length, text.drop position = rest ∧
        returned =
          ⟨position, depth, .returned (.ok (tree.interpret value Operator.apply)), frames⟩
  | .error failure =>
      ∃ position deeper,
        returned = ⟨position, deeper, .returned (.error (failure.inText text)), frames⟩

/-- From the state on, a call that left the frames waiting comes to what was read. -/
def ComesTo (read : String → Option Binary64) (value : Numeral → Binary64) (text : List Char)
    (state : State) (depth : Nat) (frames : List Frame) (reading : Reading Expression) : Prop :=
  ∃ returned, Runs read text frames state returned ∧ Answer value text depth frames returned reading

/-- Wherever a phrase of the level is called for, the call comes to what the reader reads there. -/
def Answers (read : String → Option Binary64) (value : Numeral → Binary64) (text : List Char)
    (reader : Reader Expression) (level : Level) (depth : Nat) : Prop :=
  ∀ (position : Nat) (frames : List Frame), position ≤ text.length →
    ComesTo read value text ⟨position, depth, .call level, frames⟩ depth frames
      (reader.read (text.drop position))

section

variable {read : String → Option Binary64} {value : Numeral → Binary64} {text : List Char}
  {position depth : Nat} {frames : List Frame}

namespace ComesTo

variable {state next : State} {reading : Reading Expression}

/-- A step comes first. -/
theorem of_step (during : During frames state) (stepped : step read text state = some next)
    (comes : ComesTo read value text next depth frames reading) :
    ComesTo read value text state depth frames reading := by
  obtain ⟨returned, runs, answer⟩ := comes
  exact ⟨returned, .head ⟨during, stepped⟩ runs, answer⟩

/-- Several steps come first. -/
theorem of_runs (runs : Runs read text frames state next)
    (comes : ComesTo read value text next depth frames reading) :
    ComesTo read value text state depth frames reading := by
  obtain ⟨returned, others, answer⟩ := comes
  exact ⟨returned, runs.trans others, answer⟩

/-- A call that has returned a value has come to it. -/
theorem ok (tree : Expression) (inside : position ≤ text.length) :
    ComesTo read value text
      ⟨position, depth, .returned (.ok (tree.interpret value Operator.apply)), frames⟩ depth frames
      (.ok (tree, text.drop position)) :=
  ⟨_, .refl, position, inside, rfl, rfl⟩

/-- A call that has returned an error has come to it, whatever its count of open parentheses. -/
theorem failed (failure : Failure) (deeper : Nat) :
    ComesTo read value text
      ⟨position, deeper, .returned (.error (failure.inText text)), frames⟩ depth frames
      (.error failure) :=
  ⟨_, .refl, position, deeper, rfl⟩

/-- A call comes to what one that it makes comes to, if that fails. -/
theorem of_failed {frame : Frame} {failure : Failure} {inner : Nat}
    (comes : ComesTo read value text state inner (frame :: frames) (.error failure)) :
    ComesTo read value text state depth frames (.error failure) := by
  obtain ⟨_, runs, position, deeper, rfl⟩ := comes
  exact .of_runs runs.of_cons (.of_step during_cons rfl (.failed failure deeper))

/-- A call goes on from where one that it makes has returned. -/
theorem of_ok {frame : Frame} {tree : Expression} {rest : List Char} {inner : Nat}
    (comes : ComesTo read value text state inner (frame :: frames) (.ok (tree, rest)))
    (goesOn : ∀ later ≤ text.length, text.drop later = rest →
      ComesTo read value text
        ⟨later, inner, .returned (.ok (tree.interpret value Operator.apply)), frame :: frames⟩ depth
        frames reading) :
    ComesTo read value text state depth frames reading := by
  obtain ⟨_, runs, later, inside, here, rfl⟩ := comes
  obtain ⟨returned, others, answer⟩ := goesOn later inside here
  exact ⟨returned, runs.of_cons.trans others, answer⟩

end ComesTo

/-- The machine finds the operators that the reader of the chain accepts. -/
theorem operatorAt?_of_drop {accepts : Operator → Bool} {additive : Bool} {symbol : Char}
    {tail : List Char} (kinds : Expression.AcceptsKind accepts additive)
    (unread : text.drop position = symbol :: tail) :
    operatorAt? text additive position = (Operator.ofSymbol? symbol).filter accepts := by
  rw [operatorAt?, getElem?_of_drop unread, Option.bind_some]
  congr 1
  funext operator
  rw [Bool.eq_iff_iff, decide_eq_true_eq, kinds operator]

/-- A chain comes to what is read after its first operands. -/
theorem readChain_comesTo {accepts : Operator → Bool} {additive : Bool} {operand : Reader Expression}
    (kinds : Expression.AcceptsKind accepts additive)
    (answers : Answers read value text operand (.operand additive) depth) {left : Expression}
    {unread : List Char} (inside : position ≤ text.length) (rest : text.drop position = unread) :
    ComesTo read value text
      ⟨position, depth, .chain additive (left.interpret value Operator.apply), frames⟩ depth frames
      (Expression.readChain accepts operand left unread) := by
  -- The chain ends where no operator of its kind stands.
  have ends {position : Nat} (left : Expression) (inside : position ≤ text.length)
      (ended : operatorAt? text additive position = none) :
      ComesTo read value text
        ⟨position, depth, .chain additive (left.interpret value Operator.apply), frames⟩ depth frames
        (.ok (left, text.drop position)) :=
    .of_step (during_self rfl) (step_noOperator ended) (.ok left inside)
  fun_induction Expression.readChain accepts operand left unread generalizing position with
  | case1 left =>
      have ended : operatorAt? text additive position = none := by
        rw [operatorAt?, getElem?_of_drop_nil rest]
        rfl
      rw [← rest]
      exact ends left inside ended
  | case2 left symbol tail refused =>
      rw [← rest]
      exact ends left inside ((operatorAt?_of_drop kinds rest).trans refused)
  | case3 left symbol tail operator found failure failed =>
      have goesOn := (operatorAt?_of_drop kinds rest).trans found
      have comes := answers (position + 1)
        (.next additive operator (left.interpret value Operator.apply) :: frames) (succ_le_of_drop rest)
      rw [drop_succ_of_drop rest, failed] at comes
      exact .of_step (during_self rfl) (step_operator goesOn) comes.of_failed
  | case4 left symbol tail operator found right after operandRead inductionHypothesis =>
      have goesOn := (operatorAt?_of_drop kinds rest).trans found
      have comes := answers (position + 1)
        (.next additive operator (left.interpret value Operator.apply) :: frames) (succ_le_of_drop rest)
      rw [drop_succ_of_drop rest, operandRead] at comes
      refine .of_step (during_self rfl) (step_operator goesOn) ?_
      refine comes.of_ok fun later laterInside here => ?_
      exact .of_step during_cons rfl (inductionHypothesis laterInside here)

/-- A call for a chain comes to what the reader of chains reads, if a call for an operand does so. -/
theorem chain_answers {accepts : Operator → Bool} {additive : Bool} {operand : Reader Expression}
    (kinds : Expression.AcceptsKind accepts additive)
    (answers : Answers read value text operand (.operand additive) depth) :
    Answers read value text (Expression.chain accepts operand) (.chain additive) depth := by
  intro position frames inside
  have comes := answers position (.first additive :: frames) inside
  refine .of_step (during_self rfl) rfl ?_
  simp only [Expression.chain]
  cases reading : operand.read (text.drop position) with
  | error failure =>
      rw [reading] at comes
      exact comes.of_failed
  | ok result =>
      obtain ⟨left, rest⟩ := result
      rw [reading] at comes
      refine comes.of_ok fun later laterInside here => ?_
      exact .of_step during_cons rfl (readChain_comesTo kinds answers laterInside here)

/-- Digits are passed one by one. -/
theorem runs_digits {start : Nat} {decimals : Option Nat} {run unread : List Char}
    (digits : ∀ character ∈ run, character.isDigit = true)
    (rest : text.drop position = run ++ unread) :
    Runs read text frames ⟨position, depth, .numeral start decimals, frames⟩
      ⟨position + run.length, depth, .numeral start decimals, frames⟩ := by
  induction run generalizing position with
  | nil => exact .refl
  | cons character run inductionHypothesis =>
      have digit := digits character List.mem_cons_self
      have others := inductionHypothesis
        (fun other inside => digits other (List.mem_cons_of_mem _ inside)) (drop_succ_of_drop rest)
      rw [Nat.add_assoc, Nat.add_comm 1] at others
      exact .head ⟨during_self rfl, step_digit (getElem?_of_drop rest) digit⟩ others

section

variable (reads : ∀ numeral : Numeral, numeral.Spelled →
  read (String.ofList numeral.write) = some (value numeral))

include reads

/-- The text of a numeral is converted to what it stands for. -/
theorem literal_comesTo {numeral : Numeral} {unread : List Char} {stop : Nat}
    (spelled : numeral.Spelled) (inside : position ≤ text.length)
    (joined : text.drop position = numeral.write ++ unread)
    (stops : position + numeral.write.length = stop) :
    ComesTo read value text ⟨stop, depth, .literal position, frames⟩ depth frames
      (.ok (.literal numeral, unread)) := by
  subst stops
  refine .of_step (during_self rfl)
    (step_literal (slice?_of_drop joined inside) (reads numeral spelled)) ?_
  rw [← drop_add_of_drop joined]
  exact .ok (.literal numeral) (add_le_of_drop joined inside)

section

variable {whole : List Char} (nonempty : whole ≠ [])
  (digits : ∀ character ∈ whole, character.isDigit = true)

include nonempty digits

/-- After the point a digit is missing, or the numeral goes on to the last of the digits there. -/
theorem decimals_comesTo {rest : List Char} {first : Nat} (inside : position ≤ text.length)
    (joined : text.drop position = whole ++ '.' :: rest)
    (passed : position + (whole.length + 1) = first) :
    ComesTo read value text ⟨first, depth, .numeral position (some first), frames⟩ depth frames
      (Expression.readNumeral (whole ++ '.' :: rest)) := by
  have pointText : text.drop position = (whole ++ ['.']) ++ rest := by
    rw [joined, List.append_assoc, List.singleton_append]
  have length : (whole ++ ['.']).length = whole.length + 1 := List.length_append
  have here := drop_add_of_drop pointText
  have hereInside := add_le_of_drop pointText inside
  rw [length, passed] at here hereInside
  obtain ⟨decimals, unread, rfl, decimalDigits, ends⟩ := Text.exists_run rest
  have noDigit := any_isDigit_of_drop (drop_add_of_drop here) ends
  rw [Expression.readNumeral_point nonempty digits, Text.takeWhile_run decimalDigits ends,
    Text.dropWhile_run decimalDigits ends]
  refine .of_runs (runs_digits decimalDigits here) ?_
  by_cases missing : decimals = []
  · subst missing
    rw [if_pos rfl]
    refine .of_step (during_self rfl) (step_noDecimals noDigit) ?_
    rw [List.nil_append] at here ⊢
    rw [List.length_nil, Nat.add_zero, ← inText_unexpected_drop hereInside, here]
    exact .failed _ depth
  · rw [if_neg missing]
    have written : Numeral.write ⟨whole, decimals⟩ = whole ++ '.' :: decimals := if_neg missing
    have decimalsLength := List.length_pos_iff.mpr missing
    refine .of_step (during_self rfl) (step_decimals noDigit (by omega)) ?_
    refine literal_comesTo reads ⟨nonempty, digits, decimalDigits⟩ inside ?_ ?_
    · rw [joined, written, List.append_assoc, List.cons_append]
    · rw [written, List.length_append, List.length_cons]
      omega

/-- Where digits stand, a numeral is read. -/
theorem numeral_comesTo {unread : List Char} (inside : position ≤ text.length)
    (joined : text.drop position = whole ++ unread) (ends : Text.EndsRun unread) :
    ComesTo read value text ⟨position, depth, .numeral position none, frames⟩ depth frames
      (Expression.readNumeral (whole ++ unread)) := by
  have here := drop_add_of_drop joined
  refine .of_runs (runs_digits digits joined) ?_
  by_cases point : unread.head? = some '.'
  · obtain ⟨rest, rfl⟩ := List.head?_eq_some_iff.mp point
    exact .of_step (during_self rfl) (step_point (getElem?_of_drop here))
      (decimals_comesTo reads nonempty digits inside joined rfl)
  · have noPoint : text[position + whole.length]? ≠ some '.' := by
      rwa [← List.head?_drop, here]
    have written : Numeral.write ⟨whole, []⟩ = whole := rfl
    rw [Expression.readNumeral_whole nonempty digits ends point]
    refine .of_step (during_self rfl) (step_whole (any_isDigit_of_drop here ends) noPoint) ?_
    exact literal_comesTo reads ⟨nonempty, digits, by simp⟩ inside joined rfl

end

/-- A factor that opens no group is a numeral, or a digit is missing. -/
theorem factor_numeral_comesTo (inside : position ≤ text.length)
    (other : text[position]? ≠ some '(') :
    ComesTo read value text ⟨position, depth, .call .factor, frames⟩ depth frames
      (Expression.readNumeral (text.drop position)) := by
  obtain ⟨whole, unread, joined, digits, ends⟩ := Text.exists_run (text.drop position)
  have joined := joined.symm
  cases whole with
  | nil =>
      rw [List.nil_append] at joined
      rw [Expression.readNumeral_endsRun (joined ▸ ends)]
      refine .of_step (during_self rfl) (step_unexpected other (any_isDigit_of_drop joined ends)) ?_
      rw [← inText_unexpected_drop inside]
      exact .failed _ depth
  | cons character whole =>
      have digit := digits character List.mem_cons_self
      rw [joined]
      exact .of_step (during_self rfl) (step_numeral (getElem?_of_drop joined) digit)
        (numeral_comesTo reads (List.cons_ne_nil _ _) digits inside joined ends)

end

/-- A group is read with one more parenthesis open, and then it has to be closed. -/
theorem group_comesTo {inner : Reader Expression} {tail : List Char}
    (answers : Answers read value text inner .expression (depth + 1)) (few : depth < 256)
    (opens : text.drop position = '(' :: tail) :
    ComesTo read value text ⟨position, depth, .call .factor, frames⟩ depth frames
      ((Expression.parenthesized inner).read ('(' :: tail)) := by
  refine .of_step (during_self rfl) (step_opening (getElem?_of_drop opens) few) ?_
  have comes := answers (position + 1) (.group :: frames) (succ_le_of_drop opens)
  rw [drop_succ_of_drop opens] at comes
  cases reading : inner.read tail with
  | error failure =>
      rw [reading] at comes
      rw [Expression.parenthesized_read_error reading]
      exact comes.of_failed
  | ok result =>
      obtain ⟨tree, rest⟩ := result
      rw [reading] at comes
      rw [Expression.parenthesized_read_ok reading]
      refine comes.of_ok fun later laterInside here => ?_
      by_cases closes : rest.head? = some ')'
      · obtain ⟨unread, rfl⟩ := List.head?_eq_some_iff.mp closes
        rw [if_pos closes, List.tail_cons, ← drop_succ_of_drop here]
        exact .of_step during_cons (step_closing (getElem?_of_drop here))
          (.ok tree (succ_le_of_drop here))
      · rw [if_neg closes]
        subst here
        rw [List.head?_drop] at closes
        refine .of_step during_cons (step_unclosed closes) ?_
        rw [← inText_unclosed_drop laterInside]
        exact .failed _ (depth + 1)

/-- What calls for factors come to, calls for terms come to. -/
theorem term_answers {inner : Reader Expression}
    (answers : Answers read value text (Expression.factor inner) .factor depth) :
    Answers read value text (Expression.term inner) .term depth := by
  refine chain_answers ?_ answers
  intro operator
  cases operator <;> decide

/-- What calls for factors come to, calls for expressions come to. -/
theorem expression_answers {inner : Reader Expression}
    (answers : Answers read value text (Expression.factor inner) .factor depth) :
    Answers read value text (Expression.expression inner) .expression depth :=
  chain_answers (fun _ => Iff.rfl) (term_answers answers)

section

variable (reads : ∀ numeral : Numeral, numeral.Spelled →
  read (String.ofList numeral.write) = some (value numeral))

include reads

/-- What is left to say of a factor is how its group is read. -/
theorem factor_answers_of_opening {inner : Reader Expression}
    (opening : ∀ (position : Nat) (frames : List Frame) (tail : List Char),
      text.drop position = '(' :: tail →
        ComesTo read value text ⟨position, depth, .call .factor, frames⟩ depth frames
          (inner.read ('(' :: tail))) :
    Answers read value text (Expression.factor inner) .factor depth := by
  intro position frames inside
  by_cases opens : (text.drop position).head? = some '('
  · obtain ⟨tail, unread⟩ := List.head?_eq_some_iff.mp opens
    rw [unread, Expression.factor_read_opening]
    exact opening position frames tail unread
  · rw [Expression.factor_read_other opens]
    exact factor_numeral_comesTo reads inside (List.head?_drop ▸ opens)

/-- As many groups may be opened as the count is short of 256. -/
theorem factor_answers (allowance : Nat) {depth : Nat} (short : depth + allowance = 256) :
    Answers read value text (Expression.factor (Expression.group allowance)) .factor depth := by
  induction allowance generalizing depth with
  | zero =>
      obtain rfl : depth = 256 := short
      apply factor_answers_of_opening reads
      intro position frames tail opens
      exact .of_step (during_self rfl) (step_tooDeep (getElem?_of_drop opens))
        (.failed (.tooDeep _) 256)
  | succ allowance inductionHypothesis =>
      have answers : Answers read value text
          (Expression.factor (Expression.group allowance)) .factor (depth + 1) :=
        inductionHypothesis (by omega)
      apply factor_answers_of_opening reads
      intro position frames tail opens
      exact group_comesTo (expression_answers answers) (by omega) opens

end

end

end Descent

end FourCards
