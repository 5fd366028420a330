/-
This file proves what holds in every state in which a text is read: the cursor stands within the text,
the count is that of the parentheses that are open before it, and no more than 256 are open. So there is
a bound on how many calls wait at once, and only numerals are converted.
-/

import FourCards.Proofs.Descent.Machine
import FourCards.Proofs.Grammar.Rejection

namespace FourCards

namespace Descent

open Grammar

/-- The calls that wait while a phrase of the level is read: an expression waits for its terms, a term
for its factors, and a factor for the expression in its group. So many groups are open. -/
inductive Waiting : Nat → Level → List Frame → Prop where
  | none : Waiting 0 .expression []
  | group {depth : Nat} {frames : List Frame} (factor : Waiting depth .factor frames) :
      Waiting (depth + 1) .expression (.group :: frames)
  | first {depth : Nat} {additive : Bool} {frames : List Frame}
      (chain : Waiting depth (.chain additive) frames) :
      Waiting depth (.operand additive) (.first additive :: frames)
  | next {depth : Nat} {additive : Bool} {frames : List Frame} (operator : Operator)
      (left : Binary64) (chain : Waiting depth (.chain additive) frames) :
      Waiting depth (.operand additive) (.next additive operator left :: frames)

/-- The calls between a phrase and the group around it. -/
def levelHeight : Level → Nat
  | .chain true => 0
  | .chain false => 1
  | .factor => 2

/-- One more call waits for an operand than for its chain. -/
theorem levelHeight_operand (additive : Bool) :
    levelHeight (.operand additive) = levelHeight (.chain additive) + 1 := by
  cases additive <;> rfl

theorem levelHeight_le (level : Level) : levelHeight level ≤ 2 := by
  rcases level with _ | additive
  · exact Nat.le_refl 2
  · cases additive <;> decide

namespace Waiting

variable {depth : Nat} {level : Level} {frames : List Frame}

/-- Three calls wait for every open group. -/
theorem length_eq (waiting : Waiting depth level frames) :
    frames.length = 3 * depth + levelHeight level := by
  induction waiting with
  | none => rfl
  | group factor factorHypothesis =>
      rw [List.length_cons, factorHypothesis]
      simp only [levelHeight]
      omega
  | first chain chainHypothesis =>
      rw [List.length_cons, chainHypothesis, levelHeight_operand]
      omega
  | next operator left chain chainHypothesis =>
      rw [List.length_cons, chainHypothesis, levelHeight_operand]
      omega

/-- The phrase that a group waits for is no operand, and one more group is open. -/
theorem of_group (waiting : Waiting depth level (.group :: frames)) :
    ∃ outer, depth = outer + 1 ∧ Waiting outer .factor frames := by
  cases waiting with
  | group factor => exact ⟨_, rfl, factor⟩

/-- The chain that waits for its first operand was called for. -/
theorem of_first {additive : Bool} (waiting : Waiting depth level (.first additive :: frames)) :
    Waiting depth (.chain additive) frames := by
  cases waiting with
  | first chain => exact chain

/-- The chain that waits for its next operand was called for. -/
theorem of_next {additive : Bool} {operator : Operator} {left : Binary64}
    (waiting : Waiting depth level (.next additive operator left :: frames)) :
    Waiting depth (.chain additive) frames := by
  cases waiting with
  | next _ _ chain => exact chain

/-- Without its innermost call, no more groups are open. -/
theorem of_cons {frame : Frame} (waiting : Waiting depth level (frame :: frames)) :
    ∃ outer ≤ depth, ∃ level, Waiting outer level frames := by
  cases waiting with
  | group factor => exact ⟨_, Nat.le_succ _, _, factor⟩
  | first chain => exact ⟨_, Nat.le_refl _, _, chain⟩
  | next _ _ chain => exact ⟨_, Nat.le_refl _, _, chain⟩

end Waiting

section

variable {text : List Char} {position : Nat} {character : Char}

theorem slice?_self (inside : position ≤ text.length) : slice? text position position = some [] := by
  rw [slice?, if_pos ⟨Nat.le_refl _, inside⟩, List.drop_eq_nil_of_le (List.length_take_le _ _)]

/-- A part of the text grows by the character that is passed. -/
theorem slice?_succ {start : Nat} {part : List Char} (taken : slice? text start position = some part)
    (here : text[position]? = some character) :
    slice? text start (position + 1) = some (part ++ [character]) := by
  rw [slice?, Option.ite_none_right_eq_some] at taken
  obtain ⟨⟨ordered, inside⟩, taken⟩ := taken
  have before : start ≤ (text.take position).length := by
    rwa [List.length_take, Nat.min_eq_left inside]
  have within : position + 1 ≤ text.length := (List.getElem?_eq_some_iff.mp here).1
  rw [slice?, if_pos ⟨Nat.le_succ_of_le ordered, within⟩, List.take_add_one, here,
    Option.toList_some, List.drop_append_of_le_length before, Option.some.inj taken]

/-- The character that is passed is counted. -/
theorem unclosed_take_succ (here : text[position]? = some character) :
    unclosed (text.take (position + 1)) = unclosed (text.take position) + unclosed [character] := by
  rw [List.take_add_one, here, Option.toList_some, unclosed_append]

/-- A digit neither opens nor closes a parenthesis. -/
theorem unclosed_digit (digit : character.isDigit = true) : unclosed [character] = 0 := by
  apply unclosed_eq_zero
  · intro inside
    rw [← List.mem_singleton.mp inside] at digit
    cases digit
  · intro inside
    rw [← List.mem_singleton.mp inside] at digit
    cases digit

/-- Digits with one more at their end are digits. -/
theorem digits_append {run : List Char} (digits : ∀ other ∈ run, other.isDigit = true)
    (digit : character.isDigit = true) : ∀ other ∈ run ++ [character], other.isDigit = true := by
  simpa [or_imp, forall_and, digit] using digits

/-- What was not expected is not reported as a number. -/
theorem unexpectedAt_ne_invalidNumber (text : List Char) (position : Nat) (literal : String) :
    unexpectedAt text position ≠ .invalidNumber literal := by
  rw [unexpectedAt]
  cases text[position]? <;> simp

end

/-- What goes with the control: the calls that wait for it, and the part of a numeral that was passed.
After an error the calls that are left may wait for fewer groups than are open. -/
def Fits (text : List Char) (position depth : Nat) (frames : List Frame) : Control → Prop
  | .call level => Waiting depth level frames
  | .chain additive _ => Waiting depth (.chain additive) frames
  | .numeral start none =>
      Waiting depth .factor frames ∧ ∃ whole, slice? text start position = some whole ∧
        (∀ character ∈ whole, character.isDigit = true) ∧
          (whole = [] → text[position]?.any Char.isDigit = true)
  | .numeral start (some first) =>
      Waiting depth .factor frames ∧ ∃ whole decimals,
        slice? text start position = some (whole ++ '.' :: decimals) ∧ whole ≠ [] ∧
          (∀ character ∈ whole, character.isDigit = true) ∧
            (∀ character ∈ decimals, character.isDigit = true) ∧
              position = first + decimals.length
  | .literal start =>
      Waiting depth .factor frames ∧
        ∃ numeral : Numeral, numeral.Spelled ∧ slice? text start position = some numeral.write
  | .returned (.ok _) => ∃ level, Waiting depth level frames
  | .returned (.error cause) =>
      (∀ literal, cause ≠ .invalidNumber literal) ∧
        ∃ opened ≤ depth, ∃ level, Waiting opened level frames
  | .finished outcome => frames = [] ∧ ∀ literal, outcome ≠ .error (.invalidNumber literal)

/-- The cursor is within the text, the parentheses that are open before it are counted, and they are not
too many. -/
structure Kept (text : List Char) (state : State) : Prop where
  inside : state.position ≤ text.length
  bounded : state.depth ≤ 256
  counted : unclosed (text.take state.position) = state.depth
  fits : Fits text state.position state.depth state.frames state.control

/-- At the start nothing is passed, nothing is open and no call waits. -/
theorem kept_start (text : List Char) : Kept text start :=
  ⟨Nat.zero_le _, Nat.zero_le _, rfl, .none⟩

namespace Kept

variable {text : List Char} {position depth : Nat} {control other : Control}
  {frames others : List Frame}

/-- Nothing else matters where the cursor stands still. -/
theorem stay (kept : Kept text ⟨position, depth, control, frames⟩)
    (fits : Fits text position depth others other) :
    Kept text ⟨position, depth, other, others⟩ :=
  ⟨kept.inside, kept.bounded, kept.counted, fits⟩

/-- A character may be passed if it is no parenthesis. -/
theorem pass {character : Char} (kept : Kept text ⟨position, depth, control, frames⟩)
    (here : text[position]? = some character) (plain : unclosed [character] = 0)
    (fits : Fits text (position + 1) depth others other) :
    Kept text ⟨position + 1, depth, other, others⟩ := by
  refine ⟨(List.getElem?_eq_some_iff.mp here).1, kept.bounded, ?_, fits⟩
  rw [unclosed_take_succ here, plain, add_zero]
  exact kept.counted

/-- A call may return an error at any time, if it is not about a number. -/
theorem fail {level : Level} {cause : SyntaxError}
    (kept : Kept text ⟨position, depth, control, frames⟩) (waiting : Waiting depth level frames)
    (numbers : ∀ literal, cause ≠ .invalidNumber literal) :
    Kept text ⟨position, depth, .returned (.error cause), frames⟩ :=
  kept.stay ⟨numbers, depth, Nat.le_refl _, level, waiting⟩

/-- A call opens a group, begins a numeral or a chain, or fails. -/
theorem enter {level : Level} (kept : Kept text ⟨position, depth, .call level, frames⟩) :
    Kept text (State.enter text ⟨position, depth, .call level, frames⟩ level) := by
  have waiting : Waiting depth level frames := kept.fits
  rcases level with _ | additive
  · simp only [State.enter]
    split
    · rename_i opens
      split
      · exact kept.fail waiting (by simp)
      · rename_i few
        have few : depth < 256 := Nat.lt_of_not_le few
        refine ⟨(List.getElem?_eq_some_iff.mp opens).1, few, ?_, .group waiting⟩
        rw [unclosed_take_succ opens, unclosed_opening, kept.counted]
        rfl
    · split
      · rename_i digit
        exact kept.stay ⟨waiting, [], slice?_self kept.inside, by simp, fun _ => digit⟩
      · exact kept.fail waiting (unexpectedAt_ne_invalidNumber text position)
  · exact kept.stay (.first waiting)

/-- A chain passes an operator of its kind, or returns. -/
theorem seekOperator {additive : Bool} {left : Binary64}
    (kept : Kept text ⟨position, depth, .chain additive left, frames⟩) :
    Kept text (State.seekOperator text ⟨position, depth, .chain additive left, frames⟩ additive
      left) := by
  have waiting : Waiting depth (.chain additive) frames := kept.fits
  rw [State.seekOperator]
  split
  · rename_i operator found
    obtain ⟨found, -⟩ := Option.filter_eq_some_iff.mp found
    obtain ⟨symbol, here, isSymbol⟩ := Option.bind_eq_some_iff.mp found
    obtain rfl := Operator.symbolOfSymbol isSymbol
    exact kept.pass here (unclosed_symbol operator) (.next operator left waiting)
  · exact kept.stay ⟨_, waiting⟩

/-- A digit goes on the digits before the point, which are some where they end. -/
theorem passDigit_whole {start : Nat}
    (kept : Kept text ⟨position, depth, .numeral start none, frames⟩) :
    Kept text (State.passDigit text ⟨position, depth, .numeral start none, frames⟩ start none) := by
  obtain ⟨waiting, whole, taken, digits, begins⟩ := kept.fits
  simp only [State.passDigit]
  split
  · rename_i digit
    obtain ⟨character, here, isDigit⟩ := (Option.any_eq_true _ _).mp digit
    exact kept.pass here (unclosed_digit isDigit)
      ⟨waiting, whole ++ [character], slice?_succ taken here, digits_append digits isDigit, by simp⟩
  · rename_i noDigit
    have nonempty : whole ≠ [] := fun empty => noDigit (begins empty)
    split
    · rename_i point
      exact kept.pass point rfl
        ⟨waiting, whole, [], slice?_succ taken point, nonempty, digits, by simp, rfl⟩
    · exact kept.stay ⟨waiting, ⟨whole, []⟩, ⟨nonempty, digits, by simp⟩, taken⟩

/-- A digit goes on the digits after the point; without any the numeral fails. -/
theorem passDigit_decimals {start first : Nat}
    (kept : Kept text ⟨position, depth, .numeral start (some first), frames⟩) :
    Kept text (State.passDigit text ⟨position, depth, .numeral start (some first), frames⟩ start
      (some first)) := by
  obtain ⟨waiting, whole, decimals, taken, nonempty, digits, decimalDigits, passed⟩ := kept.fits
  have passed : position = first + decimals.length := passed
  simp only [State.passDigit]
  split
  · rename_i digit
    obtain ⟨character, here, isDigit⟩ := (Option.any_eq_true _ _).mp digit
    refine kept.pass here (unclosed_digit isDigit) ⟨waiting, whole, decimals ++ [character], ?_,
      nonempty, digits, digits_append decimalDigits isDigit, ?_⟩
    · rw [slice?_succ taken here, List.append_assoc, List.cons_append]
    · rw [List.length_append, List.length_singleton]
      omega
  · split
    · exact kept.fail waiting (unexpectedAt_ne_invalidNumber text position)
    · rename_i some
      have decimalsNonempty : decimals ≠ [] := by
        rintro rfl
        exact some passed
      refine kept.stay ⟨waiting, ⟨whole, decimals⟩, ⟨nonempty, digits, decimalDigits⟩, ?_⟩
      rw [taken, Numeral.write, if_neg decimalsNonempty]

/-- A reader that knows the numerals refuses none. -/
theorem convert {read : String → Option Binary64}
    (reads : ∀ numeral : Numeral, numeral.Spelled → (read (String.ofList numeral.write)).isSome)
    {start : Nat} (kept : Kept text ⟨position, depth, .literal start, frames⟩) :
    Kept text (State.convert text ⟨position, depth, .literal start, frames⟩ read start) := by
  obtain ⟨waiting, numeral, spelled, taken⟩ := kept.fits
  obtain ⟨value, known⟩ := Option.isSome_iff_exists.mp (reads numeral spelled)
  simp only [State.convert, taken, Option.getD_some, known]
  exact kept.stay ⟨_, waiting⟩

/-- A group that is closed is no longer open; a chain goes on with what was returned. -/
theorem resume {outcome : Except SyntaxError Binary64}
    (kept : Kept text ⟨position, depth, .returned outcome, frames⟩) :
    Kept text (State.resume text ⟨position, depth, .returned outcome, frames⟩ outcome) := by
  cases outcome with
  | error cause =>
      obtain ⟨numbers, opened, fewer, level, waiting⟩ := kept.fits
      cases frames with
      | nil => exact kept.stay ⟨rfl, fun literal same => numbers literal (Except.error.inj same)⟩
      | cons frame frames =>
          obtain ⟨outer, fewerOuter, level, outerWaiting⟩ := waiting.of_cons
          exact kept.stay ⟨numbers, outer, fewerOuter.trans fewer, level, outerWaiting⟩
  | ok value =>
      obtain ⟨level, waiting⟩ := kept.fits
      rcases frames with _ | ⟨_ | additive | ⟨additive, operator, left⟩, frames⟩
      · simp only [State.resume]
        split
        · exact kept.stay ⟨rfl, by simp⟩
        · exact kept.stay ⟨rfl, by simp⟩
      · obtain ⟨outer, rfl, factor⟩ := waiting.of_group
        simp only [State.resume]
        split
        · rename_i closes
          refine ⟨(List.getElem?_eq_some_iff.mp closes).1, Nat.le_of_succ_le kept.bounded, ?_,
            _, factor⟩
          rw [unclosed_take_succ closes, kept.counted]
          simp [unclosed]
        · exact kept.stay ⟨by simp, outer, Nat.le_succ _, _, factor⟩
      · exact kept.stay waiting.of_first
      · exact kept.stay waiting.of_next

/-- The calls that wait were made within one another, and within no more groups than are open. -/
theorem exists_waiting {state : State} (kept : Kept text state) :
    ∃ opened ≤ state.depth, ∃ level, Waiting opened level state.frames := by
  obtain ⟨position, depth, control, frames⟩ := state
  have fits : Fits text position depth frames control := kept.fits
  cases control with
  | call level => exact ⟨depth, Nat.le_refl _, level, fits⟩
  | chain additive left => exact ⟨depth, Nat.le_refl _, _, fits⟩
  | numeral start decimals =>
      cases decimals with
      | none => exact ⟨depth, Nat.le_refl _, _, fits.1⟩
      | some first => exact ⟨depth, Nat.le_refl _, _, fits.1⟩
  | literal start => exact ⟨depth, Nat.le_refl _, _, fits.1⟩
  | returned outcome =>
      cases outcome with
      | error cause => exact fits.2
      | ok value => exact ⟨depth, Nat.le_refl _, fits⟩
  | finished outcome =>
      obtain ⟨rfl, -⟩ := fits
      exact ⟨0, Nat.zero_le _, _, .none⟩

/-- The open parentheses bound the calls that wait. -/
theorem length_frames_le {state : State} (kept : Kept text state) :
    state.frames.length ≤ 3 * state.depth + 2 := by
  obtain ⟨opened, fewer, level, waiting⟩ := kept.exists_waiting
  have length := waiting.length_eq
  have height := levelHeight_le level
  omega

variable {read : String → Option Binary64}

/-- Each kind of step keeps what holds of the state. -/
theorem step {state next : State}
    (reads : ∀ numeral : Numeral, numeral.Spelled → (read (String.ofList numeral.write)).isSome)
    (kept : Kept text state) (stepped : Descent.step read text state = some next) :
    Kept text next := by
  obtain ⟨position, depth, control, frames⟩ := state
  cases control with
  | call level => cases stepped; exact kept.enter
  | chain additive left => cases stepped; exact kept.seekOperator
  | numeral start decimals =>
      cases stepped
      cases decimals with
      | none => exact kept.passDigit_whole
      | some first => exact kept.passDigit_decimals
  | literal start => cases stepped; exact kept.convert reads
  | returned outcome => cases stepped; exact kept.resume
  | finished outcome => cases stepped

/-- It holds in every state that is reached, by induction on the steps. -/
theorem reached {state : State}
    (reads : ∀ numeral : Numeral, numeral.Spelled → (read (String.ofList numeral.write)).isSome)
    (reached : Reached read text state) : Kept text state := by
  induction reached with
  | refl => exact kept_start text
  | tail _ stepped kept => exact kept.step reads stepped

end Kept

end Descent

end FourCards
