/-
This file proves that a text is read orderly: in every state the cursor stands within the text and the
open parentheses are counted, every call returns, only numerals are converted, and reading ends with
what the text is evaluated to.
-/

import FourCards.Proofs.Descent.Calls

namespace FourCards

namespace Descent

open Grammar

/-- The reader of the phrases of a level in which so many groups may be opened. -/
def readerOf (allowance : Nat) : Level → Reader Expression
  | .factor => Expression.factor (Expression.group allowance)
  | .chain false => Expression.term (Expression.group allowance)
  | .chain true => Expression.expression (Expression.group allowance)

/-- What a call returns for what is read. -/
def outcomeOf (value : Numeral → Binary64) (text : List Char) :
    Reading Expression → Except SyntaxError Binary64
  | .ok (tree, _) => .ok (tree.interpret value Operator.apply)
  | .error failure => .error (failure.inText text)

/-- The call of the state returns to the calls that wait, with the outcome of what is read. If that is a
value, the cursor has moved on and the count is what it was. -/
def Returns (read : String → Option Binary64) (value : Numeral → Binary64) (text : List Char)
    (call : State) (reading : Reading Expression) : Prop :=
  ∃ returned, Runs read text call.frames call returned ∧ returned.frames = call.frames ∧
    returned.control = .returned (outcomeOf value text reading) ∧
      ∀ result, returned.control = .returned (.ok result) →
        call.position < returned.position ∧ returned.depth = call.depth

/-- The cursor is within the text, the parentheses that are open before it are counted, and they bound
the calls that wait. A call returns what its reader reads from the cursor on. What is converted is a
numeral, and no number is refused. -/
structure Orderly (read : String → Option Binary64) (value : Numeral → Binary64) (text : List Char)
    (state : State) : Prop where
  inside : state.position ≤ text.length
  bounded : state.depth ≤ 256
  counted : unclosed (text.take state.position) = state.depth
  shallow : state.frames.length ≤ 3 * state.depth + 2
  returns : ∀ level, state.control = .call level →
    Returns read value text state
      ((readerOf (256 - state.depth) level).read (text.drop state.position))
  converts : ∀ start, state.control = .literal start → ∃ numeral : Numeral,
    numeral.Spelled ∧ slice? text start state.position = some numeral.write
  accepts : ∀ literal, state.control ≠ .returned (.error (.invalidNumber literal)) ∧
    state.control ≠ .finished (.error (.invalidNumber literal))

section

variable {read : String → Option Binary64} {value : Numeral → Binary64}
  (reads : ∀ numeral : Numeral, numeral.Spelled →
    read (String.ofList numeral.write) = some (value numeral))

include reads

/-- Every call comes to what the reader of its level reads, with as many groups as are left to open. -/
theorem readerOf_answers {text : List Char} {depth : Nat} (bounded : depth ≤ 256) (level : Level) :
    Answers read value text (readerOf (256 - depth) level) level depth := by
  have factor : Answers read value text
      (Expression.factor (Expression.group (256 - depth))) .factor depth :=
    factor_answers reads (256 - depth) (by omega)
  rcases level with _ | additive
  · exact factor
  · cases additive with
    | false => exact term_answers factor
    | true => exact expression_answers factor

/-- What a reader reads is not empty, so the cursor moves on. -/
theorem returns_of_call {text : List Char} {position depth : Nat} (frames : List Frame)
    (inside : position ≤ text.length) (bounded : depth ≤ 256) (level : Level) :
    Returns read value text ⟨position, depth, .call level, frames⟩
      ((readerOf (256 - depth) level).read (text.drop position)) := by
  obtain ⟨returned, runs, answer⟩ := readerOf_answers reads bounded level position frames inside
  refine ⟨returned, runs, ?_⟩
  cases reading : (readerOf (256 - depth) level).read (text.drop position) with
  | error failure =>
      rw [reading] at answer
      obtain ⟨_, _, rfl⟩ := answer
      exact ⟨rfl, rfl, by simp⟩
  | ok result =>
      obtain ⟨tree, rest⟩ := result
      rw [reading] at answer
      obtain ⟨later, laterInside, laterRest, rfl⟩ := answer
      have shorter := (readerOf (256 - depth) level).shortens reading
      rw [← laterRest, List.length_drop, List.length_drop] at shorter
      have advanced : position < later := by omega
      exact ⟨rfl, rfl, fun _ _ => ⟨advanced, rfl⟩⟩

/-- Every state that is reached is orderly. -/
theorem orderly_of_reached {text : List Char} {state : State} (reached : Reached read text state) :
    Orderly read value text state := by
  have known (numeral : Numeral) (spelled : numeral.Spelled) :
      (read (String.ofList numeral.write)).isSome := by
    rw [reads numeral spelled]
    rfl
  have kept := Kept.reached known reached
  have shallow := kept.length_frames_le
  obtain ⟨position, depth, control, frames⟩ := state
  refine ⟨kept.inside, kept.bounded, kept.counted, shallow, ?_, ?_, ?_⟩
  · rintro level rfl
    exact returns_of_call reads frames kept.inside kept.bounded level
  · rintro start rfl
    exact kept.fits.2
  · intro literal
    constructor
    · rintro rfl
      exact kept.fits.1 literal rfl
    · rintro rfl
      exact kept.fits.2 literal rfl

/-- Reading ends with the value of the text or with the error for it. -/
theorem exists_finished (text : List Char) :
    ∃ last, Reached read text last ∧ last.control = .finished
      (((Expression.parse text).mapError (Failure.inText text)).map
        (Expression.interpret value Operator.apply)) := by
  obtain ⟨returned, runs, answer⟩ :=
    readerOf_answers reads (Nat.zero_le 256) .expression 0 [] (Nat.zero_le text.length)
  have answer : Answer value text 0 [] returned (Expression.grammar.read text) := answer
  have reached : Reached read text returned := runs.reached .refl
  cases reading : Expression.grammar.read text with
  | error failure =>
      rw [reading] at answer
      obtain ⟨position, depth, rfl⟩ := answer
      rw [Expression.parse_of_grammar_error reading]
      exact ⟨_, reached.tail rfl, rfl⟩
  | ok result =>
      obtain ⟨tree, rest⟩ := result
      rw [reading] at answer
      obtain ⟨position, inside, here, rfl⟩ := answer
      by_cases remains : rest = []
      · subst remains
        have whole : ¬ position < text.length := Nat.not_lt_of_le (List.drop_eq_nil_iff.mp here)
        simp only [Expression.parse, reading]
        exact ⟨_, reached.tail (step_finished whole), rfl⟩
      · subst here
        have before : position < text.length := by
          by_contra whole
          exact remains (List.drop_eq_nil_of_le (Nat.le_of_not_lt whole))
        rw [Expression.parse_of_trailing reading remains, Except.mapError,
          inText_trailing_drop inside]
        exact ⟨_, reached.tail (step_trailing before), rfl⟩

/-- Whatever the numerals are read as, a text is read orderly from state to state, up to the outcome that
it has by the grammar. If they are read as their values, that is what the text is evaluated to. -/
theorem reads_orderly (text : String) :
    (∀ state, Reached read (Text.strip text.toList) state →
      Orderly read value (Text.strip text.toList) state) ∧
    ∃ last outcome, Reached read (Text.strip text.toList) last ∧ last.control = .finished outcome ∧
      outcome = (Expression.ofText text).map (Expression.interpret value Operator.apply) ∧
        (value = Numeral.value → outcome = Expression.evaluate text) := by
  obtain ⟨last, reached, finished⟩ := exists_finished reads (Text.strip text.toList)
  refine ⟨fun state => orderly_of_reached reads, last, _, reached, finished, rfl, ?_⟩
  rintro rfl
  exact (Expression.evaluate_eq_map text).symm

end

/-- The value of a text that spells a numeral. -/
def valueOfText? (text : String) : Option Binary64 :=
  match Expression.readNumeral text.toList with
  | .ok (.literal numeral, []) => some numeral.value
  | _ => none

/-- A numeral that is written has its value. -/
theorem valueOfText?_write {numeral : Numeral} (spelled : numeral.Spelled) :
    valueOfText? (String.ofList numeral.write) = some numeral.value := by
  have reading := Expression.readNumeral_write spelled Text.endsRun_nil (by simp)
  rw [List.append_nil] at reading
  rw [valueOfText?, String.toList_ofList, reading]

/-- Two parentheses are open where an expression is called for, and where later its first numeral is
converted. -/
theorem reads_orderly_nested :
    (∀ numeral : Numeral, numeral.Spelled →
      valueOfText? (String.ofList numeral.write) = some numeral.value) ∧
    let text := Text.strip "((1.5 + 3)- 4)*6".toList
    let within : List Frame :=
      [.group, .first false, .first true, .group, .first false, .first true]
    Reached valueOfText? text ⟨2, 2, .call .expression, within⟩ ∧
      Orderly valueOfText? Numeral.value text ⟨2, 2, .call .expression, within⟩ ∧
    Reached valueOfText? text ⟨5, 2, .literal 2, .first false :: .first true :: within⟩ ∧
      Orderly valueOfText? Numeral.value text
        ⟨5, 2, .literal 2, .first false :: .first true :: within⟩ ∧
    ∃ last, Reached valueOfText? text last ∧
      last.control = .finished (Expression.evaluate "((1.5 + 3)- 4)*6") := by
  have reads (numeral : Numeral) (spelled : numeral.Spelled) := valueOfText?_write spelled
  obtain ⟨orderly, last, outcome, reached, finished, -, evaluated⟩ :=
    reads_orderly reads "((1.5 + 3)- 4)*6"
  have called := reached_after valueOfText? (Text.strip "((1.5 + 3)- 4)*6".toList) 6
  have converted := reached_after valueOfText? (Text.strip "((1.5 + 3)- 4)*6".toList) 13
  rw [show after valueOfText? (Text.strip "((1.5 + 3)- 4)*6".toList) 6 =
    ⟨2, 2, .call .expression,
      [.group, .first false, .first true, .group, .first false, .first true]⟩ by decide] at called
  rw [show after valueOfText? (Text.strip "((1.5 + 3)- 4)*6".toList) 13 =
    ⟨5, 2, .literal 2,
      [.first false, .first true, .group, .first false, .first true, .group, .first false,
        .first true]⟩ by decide] at converted
  rw [evaluated rfl] at finished
  exact ⟨reads, called, orderly _ called, converted, orderly _ converted, last, reached, finished⟩

end Descent

end FourCards
