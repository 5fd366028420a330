/-
This file defines the derivations of the grammar of expressions, their texts and their meanings.
A text has at most one derivation.
-/

import FourCards.Proofs.Grammar.Numeral

namespace FourCards

/-- Reads the numerals by `literal` and computes every application by `apply`. -/
def Expression.interpret {α : Type} (literal : Numeral → α) (apply : Operator → α → α → α) :
    Expression → α
  | .literal numeral => literal numeral
  | .apply operator left right =>
      apply operator (left.interpret literal apply) (right.interpret literal apply)

/-- With the values of numerals and the operations, an expression means its value. -/
theorem Expression.interpret_value (expression : Expression) :
    expression.interpret Numeral.value Operator.apply = expression.value := by
  induction expression with
  | literal numeral => rw [interpret, value]
  | apply operator left right leftHypothesis rightHypothesis =>
      rw [interpret, value, leftHypothesis, rightHypothesis]

/-- The numerals from left to right. -/
def Expression.literals : Expression → List Numeral
  | .literal numeral => [numeral]
  | .apply _ left right => left.literals ++ right.literals

namespace Grammar

/-- A factor binds tightest; a chain joins operands by operators that are additive or are not. -/
inductive Level where
  | factor
  | chain (additive : Bool)
deriving DecidableEq

namespace Level

/-- The operands of a sum are products, and the operands of a product are factors. -/
def operand : Bool → Level
  | true => chain false
  | false => factor

abbrev term : Level := chain false

abbrev expression : Level := chain true

/-- A character goes on a phrase that was complete without it. -/
def goesOn (level : Level) (character : Char) : Bool :=
  character.isDigit || character = '.' ||
    match level with
    | factor => false
    | chain additive =>
        (Operator.ofSymbol? character).any fun operator => !operator.isAdditive || additive

/-- The text begins with no character that goes on a phrase before it. -/
def Stops (level : Level) (unread : List Char) : Prop :=
  ∀ character ∈ unread.head?, level.goesOn character = false

theorem stops_nil (level : Level) : level.Stops [] := by
  intro character inside
  cases inside

/-- Whether a phrase stops is up to the next character. -/
theorem stops_cons {level : Level} {character : Char} {unread : List Char} :
    level.Stops (character :: unread) ↔ level.goesOn character = false := by
  simp [Stops]

/-- What goes on an operand goes on the chain that it ends. -/
theorem goesOn_operand {additive : Bool} {character : Char}
    (operandGoesOn : (operand additive).goesOn character = true) :
    (chain additive).goesOn character = true := by
  cases additive with
  | false =>
      simp only [operand, goesOn, Bool.or_false] at operandGoesOn
      simp only [goesOn, operandGoesOn, Bool.true_or]
  | true =>
      simp only [operand, goesOn, Bool.or_eq_true, Option.any_eq_true] at operandGoesOn ⊢
      refine operandGoesOn.imp_right ?_
      rintro ⟨operator, found, _⟩
      exact ⟨operator, found, .inr trivial⟩

/-- An operand stops where the chain that it ends stops. -/
theorem stops_operand {additive : Bool} {unread : List Char}
    (stops : (chain additive).Stops unread) : (operand additive).Stops unread := by
  intro character first
  by_contra goes
  have := goesOn_operand (Bool.not_eq_false _ ▸ goes)
  simp [stops character first] at this

/-- An operator goes on the chains of its kind. -/
theorem goesOn_symbol (operator : Operator) :
    (chain operator.isAdditive).goesOn operator.symbol = true := by
  cases operator <;> decide

/-- An operator does not go on the operands that it joins. -/
theorem not_goesOn_symbol (operator : Operator) :
    (operand operator.isAdditive).goesOn operator.symbol = false := by
  cases operator <;> decide

/-- A closing parenthesis goes on no phrase. -/
theorem not_goesOn_closing (level : Level) : level.goesOn ')' = false := by
  rcases level with _ | additive
  · decide
  · cases additive <;> decide

/-- A phrase of any level ends before a character that is neither a digit nor a point. -/
theorem Stops.endsRun {level : Level} {unread : List Char} (stops : level.Stops unread) :
    Text.EndsRun unread := by
  intro character first
  have := stops character first
  simp only [goesOn, Bool.or_eq_false_iff] at this
  exact this.1.1

/-- No phrase stops before a point. -/
theorem Stops.ne_point {level : Level} {unread : List Char} (stops : level.Stops unread) :
    ∀ character ∈ unread.head?, character ≠ '.' := by
  intro character first
  have := stops character first
  simp only [goesOn, Bool.or_eq_false_iff, decide_eq_false_iff_not] at this
  exact this.1.2

end Level

/-- A phrase is complete, or it is what follows the first operand of a chain. -/
inductive Phrase where
  | complete (level : Level)
  | rest (additive : Bool)
deriving DecidableEq

namespace Phrase

/-- The rest of a chain stands for what becomes of the operand before it. -/
abbrev Meaning (α : Type) : Phrase → Type
  | complete _ => α
  | rest _ => α → α

def Stops (unread : List Char) : Phrase → Prop
  | complete level => level.Stops unread
  | rest additive => (Level.chain additive).Stops unread

end Phrase

/-- The constructors are the rules of the grammar: `factor := number | "(" expression ")"`, a chain
is an operand and its rest, and a rest is empty or an operator, an operand and another rest. -/
inductive Derivation : Phrase → Type where
  | numeral (number : Numeral) (spelled : number.Spelled) : Derivation (.complete .factor)
  | group (inner : Derivation (.complete .expression)) : Derivation (.complete .factor)
  | chain {additive : Bool} (first : Derivation (.complete (.operand additive)))
      (others : Derivation (.rest additive)) : Derivation (.complete (.chain additive))
  | done {additive : Bool} : Derivation (.rest additive)
  | more {additive : Bool} (operator : Operator) (kind : operator.isAdditive = additive)
      (next : Derivation (.complete (.operand additive)))
      (others : Derivation (.rest additive)) : Derivation (.rest additive)

namespace Derivation

/-- The text that is derived. -/
def text {phrase : Phrase} : Derivation phrase → List Char
  | numeral number _ => number.write
  | group inner => '(' :: (inner.text ++ [')'])
  | chain first others => first.text ++ others.text
  | done => []
  | more operator _ next others => operator.symbol :: (next.text ++ others.text)

/-- The greatest number of parentheses that are open at once. -/
def depth {phrase : Phrase} : Derivation phrase → Nat
  | numeral _ _ => 0
  | group inner => inner.depth + 1
  | chain first others => max first.depth others.depth
  | done => 0
  | more _ _ next others => max next.depth others.depth

/-- The numerals from left to right. -/
def literals {phrase : Phrase} : Derivation phrase → List Numeral
  | numeral number _ => [number]
  | group inner => inner.literals
  | chain first others => first.literals ++ others.literals
  | done => []
  | more _ _ next others => next.literals ++ others.literals

/-- Reads the numerals by `literal` and folds every chain from the left by `apply`. -/
def interpret {α : Type} (literal : Numeral → α) (apply : Operator → α → α → α)
    {phrase : Phrase} : Derivation phrase → phrase.Meaning α
  | numeral number _ => literal number
  | group inner => inner.interpret literal apply
  | chain first others => others.interpret literal apply (first.interpret literal apply)
  | done => fun left => left
  | more operator _ next others => fun left =>
      others.interpret literal apply (apply operator left (next.interpret literal apply))

def value {phrase : Phrase} (derivation : Derivation phrase) : phrase.Meaning Binary64 :=
  derivation.interpret Numeral.value Operator.apply

/-- The tree of the applications, without the parentheses. -/
def tree {phrase : Phrase} (derivation : Derivation phrase) : phrase.Meaning Expression :=
  derivation.interpret Expression.literal Expression.apply

section Interpretation

variable {α : Type} (literal : Numeral → α) (apply : Operator → α → α → α)

mutual

/-- A phrase means what its tree means, whatever the numerals and operators stand for. -/
theorem interpret_tree {level : Level} (derivation : Derivation (.complete level)) :
    derivation.tree.interpret literal apply = derivation.interpret literal apply := by
  match derivation with
  | .numeral number spelled => rfl
  | .group inner => exact interpret_tree inner
  | .chain first others =>
      exact (interpret_others others first.tree).trans
        (congrArg (others.interpret literal apply) (interpret_tree first))

/-- The rest of a chain is applied to what the operands before it mean. -/
theorem interpret_others {additive : Bool} (others : Derivation (.rest additive))
    (left : Expression) :
    (others.tree left).interpret literal apply =
      others.interpret literal apply (left.interpret literal apply) := by
  match others with
  | .done => rfl
  | .more operator kind next others =>
      rw [interpret, ← interpret_tree next]
      exact interpret_others others (.apply operator left next.tree)

end

end Interpretation

/-- A derivation has the value of its tree. -/
theorem value_tree {level : Level} (derivation : Derivation (.complete level)) :
    derivation.tree.value = derivation.value := by
  rw [← Expression.interpret_value]
  exact interpret_tree Numeral.value Operator.apply derivation

mutual

/-- The tree has the numerals of the derivation, in the same order. -/
theorem literals_tree {level : Level} (derivation : Derivation (.complete level)) :
    derivation.tree.literals = derivation.literals := by
  match derivation with
  | .numeral number spelled => rfl
  | .group inner => exact literals_tree inner
  | .chain first others =>
      exact (literals_others others first.tree).trans
        (congrArg (· ++ others.literals) (literals_tree first))

/-- The numerals of the rest of a chain follow those of the operands before it. -/
theorem literals_others {additive : Bool} (others : Derivation (.rest additive))
    (left : Expression) : (others.tree left).literals = left.literals ++ others.literals := by
  match others with
  | .done => exact (List.append_nil _).symm
  | .more operator kind next others =>
      rw [literals, ← literals_tree next, ← List.append_assoc]
      exact literals_others others (.apply operator left next.tree)

end

/-- The rest of a chain begins where its operands end. -/
theorem stops_others {additive : Bool} (others : Derivation (.rest additive))
    {unread : List Char} (stops : (Level.chain additive).Stops unread) :
    (Level.operand additive).Stops (others.text ++ unread) := by
  match others with
  | done => exact Level.stops_operand stops
  | more operator kind next others =>
      subst kind
      exact Level.stops_cons.mpr (Level.not_goesOn_symbol operator)

/-- An operator of its kind does not end a chain. -/
theorem not_stops_symbol {additive : Bool} {operator : Operator}
    (kind : operator.isAdditive = additive) {unread : List Char} :
    ¬ (Level.chain additive).Stops (operator.symbol :: unread) := by
  subst kind
  simp [Level.stops_cons, Level.goesOn_symbol]

/-- Two derivations of phrases that begin one text are the same if neither phrase can go on. -/
theorem text_unique {phrase : Phrase} (derivation other : Derivation phrase)
    {unread otherUnread : List Char} (stops : phrase.Stops unread)
    (otherStops : phrase.Stops otherUnread)
    (same : derivation.text ++ unread = other.text ++ otherUnread) :
    derivation = other ∧ unread = otherUnread := by
  induction derivation generalizing unread otherUnread with
  | numeral number spelled =>
      cases other with
      | numeral otherNumber otherSpelled =>
          obtain ⟨rfl, rfl⟩ := Expression.numeral_unique spelled otherSpelled
            (Level.Stops.endsRun stops) (Level.Stops.ne_point stops)
            (Level.Stops.endsRun otherStops) (Level.Stops.ne_point otherStops) same
          exact ⟨rfl, rfl⟩
      | group otherInner =>
          obtain ⟨character, tail, written, digit⟩ := spelled.write_head
          simp only [text, written, List.cons_append, List.cons.injEq] at same
          rw [same.1] at digit
          cases digit
  | group inner inductionHypothesis =>
      cases other with
      | numeral otherNumber otherSpelled =>
          obtain ⟨character, tail, written, digit⟩ := otherSpelled.write_head
          simp only [text, written, List.cons_append, List.cons.injEq] at same
          rw [← same.1] at digit
          cases digit
      | group otherInner =>
          simp only [text, List.cons_append, List.append_assoc, List.cons.injEq, true_and,
            List.nil_append] at same
          have closes (unread : List Char) : Level.expression.Stops (')' :: unread) :=
            Level.stops_cons.mpr (Level.not_goesOn_closing _)
          obtain ⟨rfl, unreadSame⟩ :=
            inductionHypothesis otherInner (closes unread) (closes otherUnread) same
          exact ⟨rfl, List.tail_eq_of_cons_eq unreadSame⟩
  | chain first others firstHypothesis othersHypothesis =>
      cases other with
      | chain otherFirst otherOthers =>
          simp only [text, List.append_assoc] at same
          obtain ⟨rfl, othersSame⟩ := firstHypothesis otherFirst (stops_others others stops)
            (stops_others otherOthers otherStops) same
          obtain ⟨rfl, rfl⟩ := othersHypothesis otherOthers stops otherStops othersSame
          exact ⟨rfl, rfl⟩
  | done =>
      cases other with
      | done => exact ⟨rfl, same⟩
      | more operator kind next others =>
          simp only [text, List.nil_append, List.cons_append] at same
          exact absurd (same ▸ stops) (not_stops_symbol kind)
  | more operator kind next others nextHypothesis othersHypothesis =>
      cases other with
      | done =>
          simp only [text, List.nil_append, List.cons_append] at same
          exact absurd (same.symm ▸ otherStops) (not_stops_symbol kind)
      | more otherOperator otherKind otherNext otherOthers =>
          simp only [text, List.cons_append, List.append_assoc, List.cons.injEq] at same
          obtain ⟨symbolSame, nextSame⟩ := same
          have operatorSame : some operator = some otherOperator := by
            rw [← Operator.ofSymbolSymbol, symbolSame, Operator.ofSymbolSymbol]
          obtain rfl := Option.some.inj operatorSame
          obtain ⟨rfl, othersSame⟩ := nextHypothesis otherNext (stops_others others stops)
            (stops_others otherOthers otherStops) nextSame
          obtain ⟨rfl, rfl⟩ := othersHypothesis otherOthers stops otherStops othersSame
          exact ⟨rfl, rfl⟩

/-- A text has at most one derivation. -/
theorem text_injective {phrase : Phrase} :
    Function.Injective (text : Derivation phrase → List Char) := by
  intro derivation other same
  have stops : phrase.Stops [] := by
    cases phrase with
    | complete level => exact level.stops_nil
    | rest additive => exact (Level.chain additive).stops_nil
  exact (text_unique derivation other stops stops (by rw [same])).1

end Derivation

end Grammar

end FourCards
