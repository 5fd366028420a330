/-
This file reads an expression step by step, with a cursor, a count of the open parentheses and a stack
of the calls that wait for another call to return.
-/

import FourCards.Proofs.Grammar.Derivation
import Mathlib.Logic.Relation

namespace FourCards

namespace Descent

open Grammar

/-- What is left to do in a call that waits. -/
inductive Frame where
  /-- The group around an expression has to be closed. -/
  | group
  /-- A chain goes on after its first operand. -/
  | first (additive : Bool)
  /-- An operator is applied to the operand that follows it, and its chain goes on. -/
  | next (additive : Bool) (operator : Operator) (left : Binary64)
deriving DecidableEq

/-- What is done where the cursor stands. -/
inductive Control where
  | call (level : Level)
  /-- A chain that comes to `left` so far looks for an operator. -/
  | chain (additive : Bool) (left : Binary64)
  /-- Digits are passed, after the point from the place `decimals` on. -/
  | numeral (start : Nat) (decimals : Option Nat)
  /-- The text from `start` on is taken for a numeral. -/
  | literal (start : Nat)
  | returned (outcome : Except SyntaxError Binary64)
  | finished (outcome : Except SyntaxError Binary64)
deriving DecidableEq

def Control.isReturned : Control → Bool
  | .returned _ => true
  | _ => false

structure State where
  position : Nat
  depth : Nat
  control : Control
  frames : List Frame
deriving DecidableEq

def start : State := ⟨0, 0, .call .expression, []⟩

section

variable (text : List Char)

/-- The text between two places, if they are in order and none is beyond its end. -/
def slice? (start stop : Nat) : Option (List Char) :=
  if start ≤ stop ∧ stop ≤ text.length then some ((text.take stop).drop start) else none

/-- The error where something else was wanted. -/
def unexpectedAt (position : Nat) : SyntaxError :=
  match text[position]? with
  | none => .unexpectedEnd
  | some found => .unexpectedCharacter found position

def operatorAt? (additive : Bool) (position : Nat) : Option Operator :=
  (text[position]?.bind Operator.ofSymbol?).filter fun operator => operator.isAdditive = additive

end

namespace State

/-- A call returns to the one that made it. -/
def give (state : State) (outcome : Except SyntaxError Binary64) : State :=
  { state with control := .returned outcome }

variable (text : List Char) (state : State)

/-- A chain calls for its first operand; a factor is a group or a numeral. A parenthesis is counted and
passed in one step. -/
def enter : Level → State
  | .chain additive =>
      { state with control := .call (.operand additive), frames := .first additive :: state.frames }
  | .factor =>
      if text[state.position]? = some '(' then
        if Expression.deepestNesting ≤ state.depth then
          state.give (.error (.nestingTooDeep Expression.deepestNesting))
        else ⟨state.position + 1, state.depth + 1, .call .expression, .group :: state.frames⟩
      else if text[state.position]?.any Char.isDigit then
        { state with control := .numeral state.position none }
      else state.give (.error (unexpectedAt text state.position))

def seekOperator (additive : Bool) (left : Binary64) : State :=
  match operatorAt? text additive state.position with
  | some operator =>
      ⟨state.position + 1, state.depth, .call (.operand additive),
        .next additive operator left :: state.frames⟩
  | none => state.give (.ok left)

/-- After a point a digit must not be missing. -/
def passDigit (start : Nat) (decimals : Option Nat) : State :=
  if text[state.position]?.any Char.isDigit then { state with position := state.position + 1 }
  else
    match decimals with
    | none =>
        if text[state.position]? = some '.' then
          { state with
            position := state.position + 1, control := .numeral start (some (state.position + 1)) }
        else { state with control := .literal start }
    | some first =>
        if state.position = first then state.give (.error (unexpectedAt text state.position))
        else { state with control := .literal start }

/-- A text that is no number is refused, and so is the empty text that stands for a missing one. -/
def convert (read : String → Option Binary64) (start : Nat) : State :=
  let literal := String.ofList ((slice? text start state.position).getD [])
  match read literal with
  | some value => state.give (.ok value)
  | none => state.give (.error (.invalidNumber literal))

/-- An error is passed on from call to call. Where no call waits, the whole text has to be read. -/
def resume (outcome : Except SyntaxError Binary64) : State :=
  match outcome, state.frames with
  | .error cause, [] => { state with control := .finished (.error cause) }
  | .error _, _ :: frames => { state with frames }
  | .ok value, [] =>
      if state.position < text.length then
        { state with control := .finished (.error (.trailingInput state.position)) }
      else { state with control := .finished (.ok value) }
  | .ok value, .group :: frames =>
      if text[state.position]? = some ')' then
        ⟨state.position + 1, state.depth - 1, .returned (.ok value), frames⟩
      else
        { state with
          control := .returned (.error (.mismatchedParentheses state.position)), frames }
  | .ok value, .first additive :: frames => { state with control := .chain additive value, frames }
  | .ok value, .next additive operator left :: frames =>
      { state with control := .chain additive (operator.apply left value), frames }

end State

section

variable (read : String → Option Binary64) (text : List Char)

/-- Numerals are read by `read`. -/
def step (state : State) : Option State :=
  match state.control with
  | .call level => some (state.enter text level)
  | .chain additive left => some (state.seekOperator text additive left)
  | .numeral start decimals => some (state.passDigit text start decimals)
  | .literal start => some (state.convert text read start)
  | .returned outcome => some (state.resume text outcome)
  | .finished _ => none

section

variable {read text} {position depth : Nat} {frames : List Frame}

/-- An opening parenthesis is passed, and an expression is called for. -/
theorem step_opening (opens : text[position]? = some '(') (few : depth < 256) :
    step read text ⟨position, depth, .call .factor, frames⟩ =
      some ⟨position + 1, depth + 1, .call .expression, .group :: frames⟩ := by
  simp [step, State.enter, Expression.deepestNesting, opens, Nat.not_le_of_lt few]

/-- A group too many is not opened. -/
theorem step_tooDeep (opens : text[position]? = some '(') :
    step read text ⟨position, 256, .call .factor, frames⟩ =
      some ⟨position, 256, .returned (.error (.nestingTooDeep 256)), frames⟩ := by
  simp [step, State.enter, State.give, Expression.deepestNesting, opens]

/-- A digit begins a numeral, and is not passed yet. -/
theorem step_numeral {character : Char} (here : text[position]? = some character)
    (digit : character.isDigit = true) :
    step read text ⟨position, depth, .call .factor, frames⟩ =
      some ⟨position, depth, .numeral position none, frames⟩ := by
  have other : character ≠ '(' := by
    rintro rfl
    cases digit
  simp [step, State.enter, here, digit, other]

/-- Nothing else begins a factor. -/
theorem step_unexpected (other : text[position]? ≠ some '(')
    (noDigit : text[position]?.any Char.isDigit = false) :
    step read text ⟨position, depth, .call .factor, frames⟩ =
      some ⟨position, depth, .returned (.error (unexpectedAt text position)), frames⟩ := by
  simp [step, State.enter, State.give, other, noDigit]

/-- An operator of the kind of the chain is passed, and its operand is called for. -/
theorem step_operator {additive : Bool} {operator : Operator} {left : Binary64}
    (found : operatorAt? text additive position = some operator) :
    step read text ⟨position, depth, .chain additive left, frames⟩ =
      some ⟨position + 1, depth, .call (.operand additive),
        .next additive operator left :: frames⟩ := by
  simp [step, State.seekOperator, found]

/-- A chain returns where no operator of its kind stands. -/
theorem step_noOperator {additive : Bool} {left : Binary64}
    (none : operatorAt? text additive position = none) :
    step read text ⟨position, depth, .chain additive left, frames⟩ =
      some ⟨position, depth, .returned (.ok left), frames⟩ := by
  simp [step, State.seekOperator, State.give, none]

/-- A digit of a numeral is passed. -/
theorem step_digit {start : Nat} {decimals : Option Nat} {character : Char}
    (here : text[position]? = some character) (digit : character.isDigit = true) :
    step read text ⟨position, depth, .numeral start decimals, frames⟩ =
      some ⟨position + 1, depth, .numeral start decimals, frames⟩ := by
  simp [step, State.passDigit, here, digit]

/-- The first point of a numeral is passed, and the place after it is kept. -/
theorem step_point {start : Nat} (point : text[position]? = some '.') :
    step read text ⟨position, depth, .numeral start none, frames⟩ =
      some ⟨position + 1, depth, .numeral start (some (position + 1)), frames⟩ := by
  simp [step, State.passDigit, point]

/-- A numeral may end without a point. -/
theorem step_whole {start : Nat} (noDigit : text[position]?.any Char.isDigit = false)
    (noPoint : text[position]? ≠ some '.') :
    step read text ⟨position, depth, .numeral start none, frames⟩ =
      some ⟨position, depth, .literal start, frames⟩ := by
  simp [step, State.passDigit, noDigit, noPoint]

/-- A numeral may not end right after its point. -/
theorem step_noDecimals {start : Nat} (noDigit : text[position]?.any Char.isDigit = false) :
    step read text ⟨position, depth, .numeral start (some position), frames⟩ =
      some ⟨position, depth, .returned (.error (unexpectedAt text position)), frames⟩ := by
  simp [step, State.passDigit, State.give, noDigit]

/-- A numeral ends after its decimals. -/
theorem step_decimals {start first : Nat} (noDigit : text[position]?.any Char.isDigit = false)
    (passed : position ≠ first) :
    step read text ⟨position, depth, .numeral start (some first), frames⟩ =
      some ⟨position, depth, .literal start, frames⟩ := by
  simp [step, State.passDigit, noDigit, passed]

/-- What was passed as a numeral is converted. -/
theorem step_literal {start : Nat} {literal : List Char} {value : Binary64}
    (taken : slice? text start position = some literal)
    (known : read (String.ofList literal) = some value) :
    step read text ⟨position, depth, .literal start, frames⟩ =
      some ⟨position, depth, .returned (.ok value), frames⟩ := by
  simp [step, State.convert, State.give, taken, known]

/-- The closing parenthesis of a group is passed. -/
theorem step_closing {value : Binary64} (closes : text[position]? = some ')') :
    step read text ⟨position, depth + 1, .returned (.ok value), .group :: frames⟩ =
      some ⟨position + 1, depth, .returned (.ok value), frames⟩ := by
  simp [step, State.resume, closes]

/-- A group that is not closed fails. -/
theorem step_unclosed {value : Binary64} (remains : text[position]? ≠ some ')') :
    step read text ⟨position, depth, .returned (.ok value), .group :: frames⟩ =
      some ⟨position, depth, .returned (.error (.mismatchedParentheses position)), frames⟩ := by
  simp [step, State.resume, remains]

/-- The outermost expression has to be followed by nothing. -/
theorem step_trailing {value : Binary64} (remains : position < text.length) :
    step read text ⟨position, depth, .returned (.ok value), []⟩ =
      some ⟨position, depth, .finished (.error (.trailingInput position)), []⟩ := by
  simp [step, State.resume, remains]

/-- At the end of the text its value is the outcome. -/
theorem step_finished {value : Binary64} (whole : ¬ position < text.length) :
    step read text ⟨position, depth, .returned (.ok value), []⟩ =
      some ⟨position, depth, .finished (.ok value), []⟩ := by
  simp [step, State.resume, whole]

end

/-- The states through which the text is read. -/
def Reached (state : State) : Prop :=
  Relation.ReflTransGen (fun earlier later => step read text earlier = some later) start state

/-- The state after so many steps, or the last one. -/
def after : Nat → State
  | 0 => start
  | count + 1 => (step read text (after count)).getD (after count)

/-- The states that are computed are reached. -/
theorem reached_after (count : Nat) : Reached read text (after read text count) := by
  induction count with
  | zero => exact .refl
  | succ count inductionHypothesis =>
      rw [after]
      cases stepped : step read text (after read text count) with
      | none => exact inductionHypothesis
      | some next => exact inductionHypothesis.tail stepped

end

/-- The call that left these frames waiting has not returned. -/
def During (frames : List Frame) (state : State) : Prop :=
  frames <:+ state.frames ∧ (state.control.isReturned = true → state.frames ≠ frames)

/-- A call that waits is over only after the one that it made. -/
theorem During.of_cons {frame : Frame} {frames : List Frame} {state : State}
    (during : During (frame :: frames) state) : During frames state := by
  refine ⟨(List.suffix_cons frame frames).trans during.1, fun _ same => ?_⟩
  have shorter := during.1.length_le
  rw [same, List.length_cons] at shorter
  omega

section

variable {frame : Frame} {frames : List Frame} {position depth : Nat} {control : Control}

/-- A call is not over while something is left to do in it. -/
theorem during_self (busy : control.isReturned = false) :
    During frames ⟨position, depth, control, frames⟩ :=
  ⟨List.suffix_rfl, fun returned => absurd (busy.symm.trans returned) Bool.false_ne_true⟩

/-- A call is not over while one that it made has not returned. -/
theorem during_cons : During frames ⟨position, depth, control, frame :: frames⟩ :=
  ⟨List.suffix_cons frame frames, fun _ => List.cons_ne_self frame frames⟩

end

/-- The steps of a call that left these frames waiting. -/
def Runs (read : String → Option Binary64) (text : List Char) (frames : List Frame) :
    State → State → Prop :=
  Relation.ReflTransGen fun earlier later =>
    During frames earlier ∧ step read text earlier = some later

namespace Runs

variable {read : String → Option Binary64} {text : List Char} {frames : List Frame}
  {state next final : State}

/-- A call that was made by another one is part of it. -/
theorem of_cons {frame : Frame} (runs : Runs read text (frame :: frames) state final) :
    Runs read text frames state final :=
  Relation.ReflTransGen.mono (fun _ _ stepped => ⟨stepped.1.of_cons, stepped.2⟩) _ _ runs

/-- The steps of a call lead from a state that is reached to one that is. -/
theorem reached (runs : Runs read text frames state final) (reached : Reached read text state) :
    Reached read text final :=
  reached.trans (Relation.ReflTransGen.mono (fun _ _ stepped => stepped.2) _ _ runs)

end Runs

end Descent

end FourCards
