/-
This file proves that the readers of expressions read what the grammar derives, as far as they
allow parentheses to be open, and that a text is evaluated to the value of its derivation.
-/

import FourCards.Proofs.Grammar.Derivation

namespace FourCards

open Grammar

/-- A reader reads the phrases of a level in which no more than `allowance` parentheses are open:
what it reads has a derivation, and what has a derivation is read up to where the phrase stops. -/
structure Reader.Reads (reader : Reader Expression) (level : Level) (allowance : Nat) : Prop where
  sound {text unread : List Char} {tree : Expression} (reading : reader.read text = .ok (tree, unread)) :
    ∃ derivation : Derivation (.complete level),
      derivation.depth ≤ allowance ∧ derivation.tree = tree ∧ derivation.text ++ unread = text
  complete (derivation : Derivation (.complete level)) {unread : List Char}
    (shallow : derivation.depth ≤ allowance) (stops : level.Stops unread) :
    reader.read (derivation.text ++ unread) = .ok (derivation.tree, unread)

namespace Expression

/-- The accepted operators are those of one kind. -/
def AcceptsKind (accepts : Operator → Bool) (additive : Bool) : Prop :=
  ∀ operator : Operator, accepts operator = true ↔ operator.isAdditive = additive

variable {accepts : Operator → Bool} {additive : Bool} {operand : Reader Expression}
  {allowance : Nat}

/-- An operator of the kind that is accepted is found by its symbol. -/
theorem filter_ofSymbol_symbol (kinds : AcceptsKind accepts additive) {operator : Operator}
    (kind : operator.isAdditive = additive) :
    (Operator.ofSymbol? operator.symbol).filter accepts = some operator := by
  simp [Operator.ofSymbolSymbol, (kinds operator).mpr kind]

/-- No accepted operator is found where a chain stops. -/
theorem filter_ofSymbol_stops (kinds : AcceptsKind accepts additive) {character : Char}
    {tail : List Char} (stops : (Level.chain additive).Stops (character :: tail)) :
    (Operator.ofSymbol? character).filter accepts = none := by
  rw [Option.filter_eq_none_iff]
  intro operator found accepted
  have kind := (kinds operator).mp accepted
  obtain rfl := Operator.symbolOfSymbol found
  exact Derivation.not_stops_symbol kind stops

/-- What a chain reads after its first operand has a derivation. -/
theorem readChain_sound (kinds : AcceptsKind accepts additive)
    (reads : operand.Reads (.operand additive) allowance) {left tree : Expression}
    {text unread : List Char} (reading : readChain accepts operand left text = .ok (tree, unread)) :
    ∃ others : Derivation (.rest additive),
      others.depth ≤ allowance ∧ others.tree left = tree ∧ others.text ++ unread = text := by
  fun_induction readChain accepts operand left text with
  | case1 left =>
      cases reading
      exact ⟨.done, Nat.zero_le _, rfl, rfl⟩
  | case2 left symbol tail =>
      cases reading
      exact ⟨.done, Nat.zero_le _, rfl, rfl⟩
  | case3 => cases reading
  | case4 left symbol tail operator found right rest operandReading inductionHypothesis =>
      obtain ⟨found, accepted⟩ := Option.filter_eq_some_iff.mp found
      obtain ⟨next, nextDepth, rfl, rfl⟩ := reads.sound operandReading
      obtain ⟨others, othersDepth, rfl, rfl⟩ := inductionHypothesis reading
      refine ⟨.more operator ((kinds operator).mp accepted) next others,
        max_le nextDepth othersDepth, rfl, ?_⟩
      simp only [Derivation.text, Operator.symbolOfSymbol found, List.cons_append,
        List.append_assoc]

/-- A derivation of the rest of a chain is read up to where the chain stops. -/
theorem readChain_complete (kinds : AcceptsKind accepts additive)
    (reads : operand.Reads (.operand additive) allowance) {unread : List Char}
    (stops : (Level.chain additive).Stops unread) (left : Expression) :
    (others : Derivation (.rest additive)) → others.depth ≤ allowance →
      readChain accepts operand left (others.text ++ unread) = .ok (others.tree left, unread)
  | .done, _ => by
      cases unread with
      | nil => rw [Derivation.text, List.append_nil, readChain]; rfl
      | cons character tail =>
          simp only [Derivation.text, List.nil_append, readChain,
            filter_ofSymbol_stops kinds stops]
          rfl
  | .more operator kind next others, shallow => by
      obtain ⟨nextDepth, othersDepth⟩ := max_le_iff.mp shallow
      have nextReading := reads.complete next nextDepth (Derivation.stops_others others stops)
      have othersReading :=
        readChain_complete kinds reads stops (.apply operator left next.tree) others othersDepth
      simp only [Derivation.text, List.cons_append, List.append_assoc, readChain,
        filter_ofSymbol_symbol kinds kind]
      split
      · rename_i failure failed
        rw [nextReading] at failed
        cases failed
      · rename_i right rest read
        rw [nextReading] at read
        cases read
        exact othersReading

/-- A chain reader reads chains if its operand reader reads their operands. -/
theorem chain_reads (kinds : AcceptsKind accepts additive)
    (reads : operand.Reads (.operand additive) allowance) :
    (chain accepts operand).Reads (.chain additive) allowance where
  sound := by
    intro text unread tree reading
    simp only [chain] at reading
    split at reading
    · cases reading
    · rename_i left rest operandReading
      obtain ⟨first, firstDepth, rfl, rfl⟩ := reads.sound operandReading
      obtain ⟨others, othersDepth, rfl, rfl⟩ := readChain_sound kinds reads reading
      refine ⟨.chain first others, max_le firstDepth othersDepth, rfl, ?_⟩
      simp only [Derivation.text, List.append_assoc]
  complete := by
    intro derivation unread shallow stops
    cases derivation with
    | chain first others =>
        obtain ⟨firstDepth, othersDepth⟩ := max_le_iff.mp shallow
        have firstReading :=
          reads.complete first firstDepth (Derivation.stops_others others stops)
        simp only [chain, Derivation.text, List.append_assoc, firstReading]
        exact readChain_complete kinds reads stops first.tree others othersDepth

/-- Where factors are read as derived, so are expressions. -/
theorem expression_reads {inner : Reader Expression}
    (reads : (factor inner).Reads .factor allowance) :
    (expression inner).Reads .expression allowance := by
  refine chain_reads (fun operator => Iff.rfl) (chain_reads ?_ reads)
  intro operator
  cases operator <;> decide

/-- A text that begins with a digit is read as a numeral and not as a group. -/
theorem factor_read_digit (inner : Reader Expression) {character : Char} {tail : List Char}
    (digit : character.isDigit = true) :
    (factor inner).read (character :: tail) = readNumeral (character :: tail) := by
  simp only [factor]
  split
  · rename_i opening
    cases opening
    cases digit
  · rfl

/-- A numeral is read up to where a factor stops. -/
theorem factor_complete_numeral (inner : Reader Expression) {number : Numeral}
    (spelled : number.Spelled) {unread : List Char} (stops : Level.factor.Stops unread) :
    (factor inner).read (number.write ++ unread) = .ok (literal number, unread) := by
  obtain ⟨character, tail, written, digit⟩ := spelled.write_head
  have reading := readNumeral_write spelled stops.endsRun stops.ne_point
  rw [written, List.cons_append] at reading ⊢
  rw [factor_read_digit inner digit, reading]

/-- A numeral that is read has a derivation, in which no parenthesis is open. -/
theorem factor_sound_numeral {allowance : Nat} {text unread : List Char} {tree : Expression}
    (reading : readNumeral text = .ok (tree, unread)) :
    ∃ derivation : Derivation (.complete .factor),
      derivation.depth ≤ allowance ∧ derivation.tree = tree ∧ derivation.text ++ unread = text := by
  obtain ⟨number, spelled, rfl, rfl⟩ := readNumeral_sound reading
  exact ⟨.numeral number spelled, Nat.zero_le _, rfl, rfl⟩

/-- Factors are read to the depth that is allowed, by induction on the allowance. -/
theorem factor_reads (allowance : Nat) : (factor (group allowance)).Reads .factor allowance := by
  induction allowance with
  | zero =>
      constructor
      · intro text unread tree reading
        simp only [factor] at reading
        split at reading
        · cases reading
        · exact factor_sound_numeral reading
      · intro derivation unread shallow stops
        cases derivation with
        | numeral number spelled => exact factor_complete_numeral _ spelled stops
        | group inner => cases shallow
  | succ allowance inductionHypothesis =>
      have inside := expression_reads inductionHypothesis
      constructor
      · intro text unread tree reading
        simp only [factor] at reading
        split at reading
        · simp only [group, parenthesized] at reading
          split at reading
          · cases reading
          · rename_i innerReading
            cases reading
            obtain ⟨inner, innerDepth, rfl, innerText⟩ := inside.sound innerReading
            refine ⟨.group inner, Nat.succ_le_succ innerDepth, rfl, ?_⟩
            simp only [Derivation.text, List.cons_append, List.append_assoc, List.nil_append,
              innerText]
          · cases reading
        · exact factor_sound_numeral reading
      · intro derivation unread shallow stops
        cases derivation with
        | numeral number spelled => exact factor_complete_numeral _ spelled stops
        | group inner =>
            have closing : Level.expression.Stops (')' :: unread) :=
              Level.stops_cons.mpr (Level.not_goesOn_closing _)
            have innerReading := inside.complete inner (Nat.le_of_succ_le_succ shallow) closing
            simp only [Derivation.text, List.cons_append, List.append_assoc, List.nil_append,
              factor, group, parenthesized, innerReading]
            rfl

/-- Expressions are read as derived, with up to 256 parentheses open. -/
theorem grammar_reads : grammar.Reads .expression 256 :=
  expression_reads (factor_reads 256)

/-- A text is parsed exactly to the trees of its derivations. -/
theorem parse_eq_ok_iff {text : List Char} {tree : Expression} :
    parse text = .ok tree ↔ ∃ derivation : Derivation (.complete .expression),
      derivation.text = text ∧ derivation.depth ≤ 256 ∧ derivation.tree = tree := by
  constructor
  · intro parsed
    simp only [parse] at parsed
    split at parsed
    · cases parsed
    · rename_i reading
      cases parsed
      obtain ⟨derivation, shallow, treeSame, derived⟩ := grammar_reads.sound reading
      exact ⟨derivation, by simpa using derived, shallow, treeSame⟩
    · cases parsed
  · rintro ⟨derivation, rfl, shallow, rfl⟩
    have reading := grammar_reads.complete derivation shallow (Level.stops_nil _)
    rw [List.append_nil] at reading
    simp only [parse, reading]

/-- A text is parsed exactly to the trees of the derivations that it has without its whitespace. -/
theorem ofText_eq_ok_iff {text : String} {tree : Expression} :
    ofText text = .ok tree ↔ ∃ derivation : Derivation (.complete .expression),
      derivation.text = Text.strip text.toList ∧ derivation.depth ≤ 256 ∧
        derivation.tree = tree := by
  rw [← parse_eq_ok_iff, ofText]
  cases parse (Text.strip text.toList) <;> simp [Except.mapError]

/-- Whatever the numerals and operators stand for, a text is read to the meaning of its only
derivation. -/
theorem map_ofText_eq_ok_iff {α : Type} (literal : Numeral → α)
    (apply : Operator → α → α → α) (text : String) (value : α) :
    (ofText text).map (interpret literal apply) = .ok value ↔
      ∃ derivation : Derivation (.complete .expression),
        derivation.text = Text.strip text.toList ∧ derivation.depth ≤ 256 ∧
          derivation.interpret literal apply = value ∧
            ∀ other : Derivation (.complete .expression),
              other.text = Text.strip text.toList → other = derivation := by
  constructor
  · intro read
    cases parsed : ofText text with
    | error cause =>
        rw [parsed] at read
        cases read
    | ok tree =>
        obtain ⟨derivation, derived, shallow, rfl⟩ := ofText_eq_ok_iff.mp parsed
        rw [parsed, Except.map, Derivation.interpret_tree] at read
        refine ⟨derivation, derived, shallow, Except.ok.inj read, ?_⟩
        intro other otherDerived
        exact Derivation.text_injective (otherDerived.trans derived.symm)
  · rintro ⟨derivation, derived, shallow, rfl, -⟩
    rw [ofText_eq_ok_iff.mpr ⟨derivation, derived, shallow, rfl⟩, Except.map,
      Derivation.interpret_tree]

/-- A text is evaluated by what its tree means in numbers. -/
theorem evaluate_eq_map (text : String) :
    evaluate text = (ofText text).map (interpret Numeral.value Operator.apply) := by
  rw [evaluate, funext interpret_value]

/-- A text is evaluated to a number exactly if, without its whitespace, it has a derivation with at
most 256 parentheses open at once and of that value; it has no other derivation. So it is however the
numerals are read and whatever the operators compute. -/
theorem evaluate_eq_ok_iff (text : String) :
    (∀ value : Binary64, evaluate text = .ok value ↔
      ∃ derivation : Derivation (.complete .expression),
        derivation.text = Text.strip text.toList ∧ derivation.depth ≤ 256 ∧
          derivation.value = value ∧
            ∀ other : Derivation (.complete .expression),
              other.text = Text.strip text.toList → other = derivation) ∧
    ∀ (α : Type) (literal : Numeral → α) (apply : Operator → α → α → α) (value : α),
      (ofText text).map (interpret literal apply) = .ok value ↔
        ∃ derivation : Derivation (.complete .expression),
          derivation.text = Text.strip text.toList ∧ derivation.depth ≤ 256 ∧
            derivation.interpret literal apply = value ∧
              ∀ other : Derivation (.complete .expression),
                other.text = Text.strip text.toList → other = derivation := by
  constructor
  · intro value
    rw [evaluate_eq_map]
    exact map_ofText_eq_ok_iff Numeral.value Operator.apply text value
  · intro α literal apply value
    exact map_ofText_eq_ok_iff literal apply text value

end Expression

end FourCards
