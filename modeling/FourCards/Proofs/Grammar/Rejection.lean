/-
This file proves that the error for a text that is no expression names the first place where no accepted
text goes on as the text does.
-/

import FourCards.Proofs.Grammar.Lookahead
import FourCards.Proofs.Grammar.Writing

namespace FourCards

namespace Grammar

/-- The text is an expression in which no more than 256 parentheses are open at once. -/
def Accepted (text : List Char) : Prop :=
  ∃ derivation : Derivation (.complete .expression),
    derivation.text = text ∧ derivation.depth ≤ 256

/-- Some accepted text begins with this one. -/
def Viable (text : List Char) : Prop :=
  ∃ rest, Accepted (text ++ rest)

/-- The opening parentheses less the closing ones. -/
def unclosed (text : List Char) : Int :=
  text.count '(' - text.count ')'

def EndsIn (final : Char → Prop) (text : List Char) : Prop :=
  ∃ last ∈ text.getLast?, final last

/-- An operand follows an opening parenthesis and an operator. -/
def CallsForOperand (character : Char) : Prop :=
  character = '(' ∨ ∃ operator : Operator, operator.symbol = character

def ClosesOperand (character : Char) : Prop :=
  character.isDigit = true ∨ character = ')'

/-- The text is empty or ends in an opening parenthesis, an operator or a point. -/
def Unfinished (text : List Char) : Prop :=
  text = [] ∨ EndsIn (fun last => CallsForOperand last ∨ last = '.') text

/-- The open parentheses are counted part by part. -/
theorem unclosed_append (left right : List Char) :
    unclosed (left ++ right) = unclosed left + unclosed right := by
  simp only [unclosed, List.count_append]
  omega

theorem unclosed_opening : unclosed ['('] = 1 := rfl

theorem unclosed_symbol (operator : Operator) : unclosed [operator.symbol] = 0 := by
  cases operator <;> rfl

/-- A text without parentheses leaves none open. -/
theorem unclosed_eq_zero {text : List Char} (opening : '(' ∉ text) (closing : ')' ∉ text) :
    unclosed text = 0 := by
  simp [unclosed, List.count_eq_zero.mpr opening, List.count_eq_zero.mpr closing]

namespace EndsIn

variable {final : Char → Prop} {left right : List Char}

/-- A text ends as its last part does. -/
theorem append_right (left : List Char) (ends : EndsIn final right) :
    EndsIn final (left ++ right) := by
  obtain ⟨last, inside, isFinal⟩ := ends
  exact ⟨last, by rw [Option.mem_def, List.getLast?_append, inside]; rfl, isFinal⟩

theorem singleton {character : Char} (isFinal : final character) : EndsIn final [character] :=
  ⟨character, rfl, isFinal⟩

/-- What may be empty ends as the text before it does. -/
theorem append_of_empty_or (leftEnds : EndsIn final left)
    (rightEnds : right = [] ∨ EndsIn final right) : EndsIn final (left ++ right) := by
  rcases rightEnds with rfl | rightEnds
  · rwa [List.append_nil]
  · exact rightEnds.append_right left

theorem imp {weaker : Char → Prop} (ends : EndsIn final left)
    (implies : ∀ character, final character → weaker character) : EndsIn weaker left := by
  obtain ⟨last, inside, isFinal⟩ := ends
  exact ⟨last, inside, implies last isFinal⟩

end EndsIn

/-- The characters of a numeral are digits and points. -/
theorem isDigit_or_point_of_mem_write {number : Numeral} (spelled : number.Spelled) {character : Char}
    (inside : character ∈ number.write) : character.isDigit = true ∨ character = '.' := by
  unfold Numeral.write at inside
  split at inside
  · exact .inl (spelled.wholeDigits character inside)
  · rcases List.mem_append.mp inside with whole | decimal
    · exact .inl (spelled.wholeDigits character whole)
    · rcases List.mem_cons.mp decimal with point | decimal
      · exact .inr point
      · exact .inl (spelled.decimalDigits character decimal)

/-- A numeral leaves no parenthesis open. -/
theorem unclosed_write {number : Numeral} (spelled : number.Spelled) :
    unclosed number.write = 0 := by
  apply unclosed_eq_zero
  · intro inside
    rcases isDigit_or_point_of_mem_write spelled inside with digit | point
    · cases digit
    · cases point
  · intro inside
    rcases isDigit_or_point_of_mem_write spelled inside with digit | point
    · cases digit
    · cases point

/-- After digits an operand may be over. -/
theorem endsIn_of_digits {digits : List Char} (nonempty : digits ≠ [])
    (isDigit : ∀ character ∈ digits, character.isDigit = true) : EndsIn ClosesOperand digits :=
  ⟨digits.getLast nonempty, List.getLast?_eq_some_getLast nonempty,
    .inl (isDigit _ (List.getLast_mem nonempty))⟩

/-- After a numeral an operand may be over. -/
theorem endsIn_write {number : Numeral} (spelled : number.Spelled) :
    EndsIn ClosesOperand number.write := by
  unfold Numeral.write
  split
  · exact endsIn_of_digits spelled.wholeNonempty spelled.wholeDigits
  · rename_i nonempty
    have decimals := endsIn_of_digits nonempty spelled.decimalDigits
    exact (decimals.append_right ['.']).append_right number.whole

/-- The rest of a chain may be empty. -/
def Phrase.Ends (text : List Char) : Phrase → Prop
  | complete _ => EndsIn ClosesOperand text
  | rest _ => text = [] ∨ EndsIn ClosesOperand text

namespace Derivation

/-- Every parenthesis of a phrase is closed. -/
theorem unclosed_text {phrase : Phrase} (derivation : Derivation phrase) :
    unclosed derivation.text = 0 := by
  induction derivation with
  | numeral number spelled => exact unclosed_write spelled
  | group inner inductionHypothesis =>
      have split : (group inner).text = ['('] ++ (inner.text ++ [')']) := rfl
      rw [split, unclosed_append, unclosed_append, inductionHypothesis]
      rfl
  | chain first others firstHypothesis othersHypothesis =>
      rw [text, unclosed_append, firstHypothesis, othersHypothesis, add_zero]
  | done => rfl
  | more operator kind next others nextHypothesis othersHypothesis =>
      have split : (more operator kind next others).text =
          [operator.symbol] ++ (next.text ++ others.text) := rfl
      rw [split, unclosed_append, unclosed_append, unclosed_symbol, nextHypothesis,
        othersHypothesis]
      rfl

/-- A complete phrase ends in a digit or a closing parenthesis, and so does the rest of a chain. -/
theorem ends_text {phrase : Phrase} (derivation : Derivation phrase) :
    phrase.Ends derivation.text := by
  induction derivation with
  | numeral number spelled => exact endsIn_write spelled
  | group inner _ =>
      exact ((EndsIn.singleton (.inr rfl)).append_right inner.text).append_right ['(']
  | chain first others firstEnds othersEnd => exact EndsIn.append_of_empty_or firstEnds othersEnd
  | done => exact .inl rfl
  | more operator kind next others nextEnds othersEnd =>
      exact .inr ((EndsIn.append_of_empty_or nextEnds othersEnd).append_right [operator.symbol])

/-- The rest of a chain with one more operand at its end. -/
def extend {additive : Bool} (operator : Operator) (kind : operator.isAdditive = additive)
    (last : Derivation (.complete (.operand additive))) :
    Derivation (.rest additive) → Derivation (.rest additive)
  | done => more operator kind last done
  | more other otherKind next others =>
      more other otherKind next (extend operator kind last others)

section Extension

variable {additive : Bool} (operator : Operator) (kind : operator.isAdditive = additive)
  (last : Derivation (.complete (.operand additive)))

/-- The operator and the last operand are written after the others. -/
theorem text_extend (others : Derivation (.rest additive)) :
    (extend operator kind last others).text = others.text ++ operator.symbol :: last.text := by
  cases others with
  | done => simp only [extend, text, List.append_nil, List.nil_append]
  | more other otherKind next others =>
      simp only [extend, text, text_extend others, List.cons_append, List.append_assoc]

/-- The last operand opens as many parentheses as it does alone. -/
theorem depth_extend (others : Derivation (.rest additive)) :
    (extend operator kind last others).depth = max others.depth last.depth := by
  cases others with
  | done => simp only [extend, depth, Nat.max_zero, Nat.zero_max]
  | more other otherKind next others =>
      simp only [extend, depth, depth_extend others, Nat.max_assoc]

end Extension

end Derivation

/-- A derivation of the level, with no more parentheses open at once, begins with the text. -/
def Begins (level : Level) (allowance : Nat) (text : List Char) : Prop :=
  ∃ derivation : Derivation (.complete level),
    derivation.depth ≤ allowance ∧ text <+: derivation.text

end Grammar

open Grammar

/-- What is used up before a failure, with as many parentheses left to open. -/
def Failure.Follows (allowance : Nat) (consumed : List Char) : Failure → Prop
  | unexpected _ => Unfinished consumed
  | unclosed _ => 0 < Grammar.unclosed consumed ∧ EndsIn ClosesOperand consumed
  | trailing _ => False
  | tooDeep unread =>
      Grammar.unclosed consumed = allowance ∧
        (consumed = [] ∨ EndsIn CallsForOperand consumed) ∧ unread.head? = some '('

/-- A failure inside an operand follows what stands before the operand, too. -/
theorem Failure.Follows.append {allowance opened : Nat} {before consumed : List Char}
    {failure : Failure} (follows : failure.Follows allowance consumed)
    (count : Grammar.unclosed before = opened) (calls : EndsIn CallsForOperand before) :
    failure.Follows (opened + allowance) (before ++ consumed) := by
  cases failure with
  | unexpected unread =>
      exact .inr ((calls.imp fun _ => .inl).append_of_empty_or follows)
  | unclosed unread =>
      obtain ⟨remains, ends⟩ := follows
      refine ⟨?_, ends.append_right before⟩
      rw [unclosed_append, count]
      omega
  | trailing unread => exact follows
  | tooDeep unread =>
      obtain ⟨all, ends, opening⟩ := follows
      refine ⟨?_, .inr (calls.append_of_empty_or ends), opening⟩
      rw [unclosed_append, count, all]
      rfl

/-- Where a reader fails, it has used up the beginning of a phrase of its level. -/
def Reader.Locates (reader : Reader Expression) (level : Level) (allowance : Nat) : Prop :=
  ∀ (text : List Char) (failure : Failure), reader.read text = .error failure →
    ∃ consumed, consumed ++ failure.unread = text ∧ failure.Follows allowance consumed ∧
      Begins level allowance consumed

namespace Expression

variable {accepts : Operator → Bool} {additive : Bool} {operand : Reader Expression}
  {allowance : Nat}

/-- A chain fails where one of its operands fails. -/
theorem readChain_error (kinds : AcceptsKind accepts additive)
    (reads : operand.Reads (.operand additive) allowance) {left : Expression} {text : List Char}
    {failure : Failure} (failed : readChain accepts operand left text = .error failure) :
    ∃ (others : Derivation (.rest additive)) (operator : Operator) (tail : List Char),
      operator.isAdditive = additive ∧ others.depth ≤ allowance ∧
        others.text ++ operator.symbol :: tail = text ∧ operand.read tail = .error failure := by
  fun_induction readChain accepts operand left text with
  | case1 left => cases failed
  | case2 left symbol tail => cases failed
  | case3 left symbol tail operator found cause operandFailed =>
      cases failed
      obtain ⟨found, accepted⟩ := Option.filter_eq_some_iff.mp found
      obtain rfl := Operator.symbolOfSymbol found
      exact ⟨.done, operator, tail, (kinds operator).mp accepted, Nat.zero_le _, rfl,
        operandFailed⟩
  | case4 left symbol tail operator found right rest operandReading inductionHypothesis =>
      obtain ⟨found, accepted⟩ := Option.filter_eq_some_iff.mp found
      obtain rfl := Operator.symbolOfSymbol found
      obtain ⟨next, nextDepth, rfl, rfl⟩ := reads.sound operandReading
      obtain ⟨others, later, after, kind, othersDepth, rfl, operandFailed⟩ :=
        inductionHypothesis failed
      refine ⟨.more operator ((kinds operator).mp accepted) next others, later, after, kind,
        max_le nextDepth othersDepth, ?_, operandFailed⟩
      simp only [Derivation.text, List.cons_append, List.append_assoc]

/-- A chain goes wrong in an operand, and what was read before it closes all its parentheses. -/
theorem chain_locates (kinds : AcceptsKind accepts additive)
    (reads : operand.Reads (.operand additive) allowance)
    (locates : operand.Locates (.operand additive) allowance) :
    (chain accepts operand).Locates (.chain additive) allowance := by
  intro text failure failed
  simp only [chain] at failed
  split at failed
  · rename_i cause operandFailed
    cases failed
    obtain ⟨consumed, joined, follows, operand, shallow, begins⟩ := locates _ _ operandFailed
    refine ⟨consumed, joined, follows, .chain operand .done, ?_, ?_⟩
    · simpa only [Derivation.depth, Nat.max_zero] using shallow
    · simpa only [Derivation.text, List.append_nil] using begins
  · rename_i left rest operandReading
    obtain ⟨first, firstDepth, rfl, rfl⟩ := reads.sound operandReading
    obtain ⟨others, operator, tail, kind, othersDepth, rfl, operandFailed⟩ :=
      readChain_error kinds reads failed
    obtain ⟨consumed, rfl, follows, last, lastDepth, begins⟩ := locates _ _ operandFailed
    -- What was read before the operand leaves nothing open, so the failure keeps its allowance.
    have count : unclosed (first.text ++ others.text ++ [operator.symbol]) = (0 : Nat) := by
      simp only [unclosed_append, first.unclosed_text, others.unclosed_text, unclosed_symbol]
      rfl
    have calls : EndsIn CallsForOperand (first.text ++ others.text ++ [operator.symbol]) :=
      (EndsIn.singleton (.inr ⟨operator, rfl⟩)).append_right _
    have together := follows.append count calls
    rw [Nat.zero_add] at together
    refine ⟨_, ?_, together, .chain first (.extend operator kind last others), ?_, ?_⟩
    · simp only [List.append_assoc, List.cons_append, List.nil_append]
    · simp only [Derivation.depth, Derivation.depth_extend]
      omega
    · simp only [Derivation.text, Derivation.text_extend, List.append_assoc, List.cons_append,
        List.nil_append, List.prefix_append_right_inj, List.cons_prefix_cons, true_and]
      exact begins

/-- A numeral begins with what is used up before a digit is missing. -/
theorem readNumeral_locates (allowance : Nat) {text : List Char} {failure : Failure}
    (failed : readNumeral text = .error failure) :
    ∃ consumed, consumed ++ failure.unread = text ∧ failure.Follows allowance consumed ∧
      Begins .factor allowance consumed := by
  obtain ⟨whole, unread, rfl, digits, ends⟩ := Text.exists_run text
  by_cases nonempty : whole = []
  · subst nonempty
    rw [List.nil_append, readNumeral_endsRun ends] at failed
    cases failed
    exact ⟨[], rfl, .inl rfl, .numeral _ (Numeral.ofNat_spelled 0), Nat.zero_le _, List.nil_prefix⟩
  by_cases point : unread.head? = some '.'
  · obtain ⟨tail, rfl⟩ := List.head?_eq_some_iff.mp point
    rw [readNumeral_point nonempty digits] at failed
    split at failed
    · cases failed
      -- Any decimal would complete the numeral.
      refine ⟨whole ++ ['.'], by simp [Failure.unread], ?_,
        .numeral ⟨whole, ['0']⟩ ⟨nonempty, digits, by simp⟩, Nat.zero_le _, ['0'], ?_⟩
      · exact .inr ((EndsIn.singleton (.inr rfl)).append_right whole)
      · simp [Derivation.text, Numeral.write]
    · cases failed
  · rw [readNumeral_whole nonempty digits ends point] at failed
    cases failed

variable {inner : Reader Expression}

/-- A group goes wrong inside or where it is not closed. -/
theorem parenthesized_locates (reads : inner.Reads .expression allowance)
    (locates : inner.Locates .expression allowance) {tail : List Char} {failure : Failure}
    (failed : (parenthesized inner).read ('(' :: tail) = .error failure) :
    ∃ consumed, consumed ++ failure.unread = '(' :: tail ∧
      failure.Follows (allowance + 1) consumed ∧ Begins .factor (allowance + 1) consumed := by
  cases reading : inner.read tail with
  | error cause =>
      rw [parenthesized_read_error reading] at failed
      cases failed
      obtain ⟨consumed, rfl, follows, derivation, shallow, begins⟩ := locates _ _ reading
      have together := follows.append unclosed_opening (EndsIn.singleton (.inl rfl))
      rw [Nat.add_comm] at together
      refine ⟨['('] ++ consumed, rfl, together, .group derivation, Nat.succ_le_succ shallow, ?_⟩
      exact List.cons_prefix_cons.mpr ⟨rfl, begins.trans (List.prefix_append _ _)⟩
  | ok result =>
      obtain ⟨value, rest⟩ := result
      rw [parenthesized_read_ok reading] at failed
      split at failed
      · cases failed
      · cases failed
        obtain ⟨derivation, shallow, rfl, rfl⟩ := reads.sound reading
        refine ⟨['('] ++ derivation.text, rfl, ⟨?_, ?_⟩, .group derivation,
          Nat.succ_le_succ shallow, ?_⟩
        · rw [unclosed_append, derivation.unclosed_text, unclosed_opening]
          decide
        · exact derivation.ends_text.append_right ['(']
        · exact List.cons_prefix_cons.mpr ⟨rfl, List.prefix_append _ _⟩

/-- An expression goes wrong in a factor. -/
theorem expression_locates (reads : (factor inner).Reads .factor allowance)
    (locates : (factor inner).Locates .factor allowance) :
    (expression inner).Locates .expression allowance := by
  have products : AcceptsKind (fun operator => !operator.isAdditive) false := by
    intro operator
    cases operator <;> decide
  exact chain_locates (fun operator => Iff.rfl) (chain_reads products reads)
    (chain_locates products reads locates)

/-- A factor goes wrong in its numeral, in its group, or because no group is allowed. -/
theorem factor_locates (allowance : Nat) :
    (factor (group allowance)).Locates .factor allowance := by
  induction allowance with
  | zero =>
      intro text failure failed
      by_cases opens : text.head? = some '('
      · obtain ⟨tail, rfl⟩ := List.head?_eq_some_iff.mp opens
        rw [factor_read_opening] at failed
        cases failed
        exact ⟨[], rfl, ⟨rfl, .inl rfl, rfl⟩, .numeral _ (Numeral.ofNat_spelled 0), Nat.zero_le _,
          List.nil_prefix⟩
      · rw [factor_read_other opens] at failed
        exact readNumeral_locates 0 failed
  | succ allowance inductionHypothesis =>
      intro text failure failed
      by_cases opens : text.head? = some '('
      · obtain ⟨tail, rfl⟩ := List.head?_eq_some_iff.mp opens
        rw [factor_read_opening] at failed
        exact parenthesized_locates (expression_reads (factor_reads allowance))
          (expression_locates (factor_reads allowance) inductionHypothesis) failed
      · rw [factor_read_other opens] at failed
        exact readNumeral_locates (allowance + 1) failed

/-- Where reading an expression fails, the beginning of one has been used up. -/
theorem grammar_locates : grammar.Locates .expression 256 :=
  expression_locates (factor_reads 256) (factor_locates 256)

end Expression

namespace Grammar

/-- Every text that, without its whitespace, begins so is rejected for this cause. -/
def Settles (start : List Char) (cause : SyntaxError) : Prop :=
  ∀ text : String, start <+: Text.strip text.toList → Expression.evaluate text = .error cause

/-- The beginning of an expression is the beginning of an accepted text. -/
theorem viable_of_begins {text : List Char} (begins : Begins .expression 256 text) :
    Viable text := by
  obtain ⟨derivation, shallow, rest, joined⟩ := begins
  exact ⟨rest, derivation, joined.symm, shallow⟩

/-- No accepted text begins as a text that is always rejected. -/
theorem not_viable_of_settles {start : List Char} {cause : SyntaxError}
    (settles : Settles start cause) : ¬ Viable start := by
  rintro ⟨rest, derivation, derived, shallow⟩
  have stripped : Text.strip (String.ofList derivation.text).toList = derivation.text := by
    rw [String.toList_ofList, derivation.strip_text]
  have rejected := settles (String.ofList derivation.text) (by
    rw [stripped, derived]
    exact List.prefix_append start rest)
  rw [Expression.evaluate,
    Expression.ofText_eq_ok_iff.mpr ⟨derivation, stripped.symm, shallow, rfl⟩] at rejected
  cases rejected

end Grammar

namespace Failure

/-- A failure at the same place and before the same character is reported alike. -/
theorem inText_before (consumed : List Char) {failure : Failure} {other : List Char}
    (same : other.head? = failure.unread.head?) :
    (failure.before other).inText (consumed ++ other) =
      failure.inText (consumed ++ failure.unread) := by
  cases failure with
  | unexpected unread =>
      cases unread with
      | nil =>
          obtain rfl := List.head?_eq_none_iff.mp same
          rfl
      | cons character tail =>
          obtain ⟨otherTail, rfl⟩ := List.head?_eq_some_iff.mp same
          simp [before, Failure.unread, inText]
  | unclosed unread => simp [before, Failure.unread, inText]
  | trailing unread => simp [before, Failure.unread, inText]
  | tooDeep unread => rfl

end Failure

namespace Expression

/-- A text in which no expression is read fails as the reader does. -/
theorem parse_of_grammar_error {text : List Char} {failure : Failure}
    (reading : grammar.read text = .error failure) : parse text = .error failure := by
  simp only [parse, reading]

/-- A text in which something follows the expression fails there. -/
theorem parse_of_trailing {text unread : List Char} {tree : Expression}
    (reading : grammar.read text = .ok (tree, unread)) (remains : unread ≠ []) :
    parse text = .error (.trailing unread) := by
  simp only [parse, reading]

/-- A failure is reported with its place in the text without whitespace. -/
theorem evaluate_of_parse_error {text : String} {failure : Failure}
    (failed : parse (Text.strip text.toList) = .error failure) :
    evaluate text = .error (failure.inText (Text.strip text.toList)) := by
  rw [evaluate, ofText, failed]
  rfl

/-- The text up to the offending character settles the error. -/
theorem settles_of_parse_error {consumed : List Char} {failure : Failure}
    (failed : parse (consumed ++ failure.unread) = .error failure) {character : Char}
    (offends : failure.unread.head? = some character) :
    Settles (consumed ++ [character]) (failure.inText (consumed ++ failure.unread)) := by
  obtain ⟨used, joined, settled⟩ := parse_looksAhead failed
  -- The text and what is left of it determine what was used up.
  obtain rfl := List.append_cancel_right joined
  rintro text ⟨tail, starts⟩
  have same : (character :: tail).head? = failure.unread.head? := offends.symm
  rw [List.append_assoc, List.singleton_append] at starts
  have rejected := settled (character :: tail) same
  rw [starts] at rejected
  rw [evaluate_of_parse_error rejected, ← starts, Failure.inText_before used same]

end Expression

/-- Where the character stands, the text goes wrong for this cause, whatever comes after it. -/
def SyntaxError.BreaksAt (cause : SyntaxError) (text : List Char) (position : Nat) : Prop :=
  position < text.length ∧ ¬ Viable (text.take (position + 1)) ∧
    Settles (text.take (position + 1)) cause

/-- What an error says of the text that was to be read. -/
def SyntaxError.Explains (text : List Char) : SyntaxError → Prop
  | unexpectedEnd => Viable text ∧ Unfinished text
  | unexpectedCharacter found position =>
      text[position]? = some found ∧ Viable (text.take position) ∧
        Unfinished (text.take position) ∧
          (unexpectedCharacter found position).BreaksAt text position
  | mismatchedParentheses position =>
      Viable (text.take position) ∧ 0 < unclosed (text.take position) ∧
        EndsIn ClosesOperand (text.take position) ∧
          (position = text.length ∨ (mismatchedParentheses position).BreaksAt text position)
  | trailingInput position =>
      0 < position ∧ Accepted (text.take position) ∧ (trailingInput position).BreaksAt text position
  | nestingTooDeep limit =>
      limit = 256 ∧ ∃ position, text[position]? = some '(' ∧ Viable (text.take position) ∧
        unclosed (text.take position) = 256 ∧ EndsIn CallsForOperand (text.take position) ∧
          (nestingTooDeep limit).BreaksAt text position
  | invalidNumber _ => False

namespace Expression

/-- Where reading fails before a character, the text goes wrong at that character. -/
theorem breaksAt_of_parse_error {consumed tail : List Char} {failure : Failure} {character : Char}
    (failed : parse (consumed ++ failure.unread) = .error failure)
    (offends : failure.unread = character :: tail) :
    (failure.inText (consumed ++ failure.unread)).BreaksAt (consumed ++ failure.unread)
      consumed.length := by
  have settles := settles_of_parse_error failed (congrArg List.head? offends)
  have upTo : (consumed ++ failure.unread).take (consumed.length + 1) = consumed ++ [character] := by
    rw [offends, List.take_length_add_append]
    rfl
  refine ⟨?_, ?_, ?_⟩
  · rw [offends, List.length_append, List.length_cons]
    omega
  · rw [upTo]
    exact not_viable_of_settles settles
  · rwa [upTo]

/-- A failure of the grammar is explained by what was used up before it. -/
theorem explains_of_grammar_error {text : List Char} {failure : Failure}
    (reading : grammar.read text = .error failure) : (failure.inText text).Explains text := by
  have failed := parse_of_grammar_error reading
  obtain ⟨consumed, rfl, follows, begins⟩ := grammar_locates text failure reading
  have viable := viable_of_begins begins
  have breaks (character : Char) (tail : List Char) (offends : failure.unread = character :: tail) :=
    breaksAt_of_parse_error failed offends
  cases failure with
  | unexpected unread =>
      cases unread with
      | nil =>
          rw [Failure.unread, List.append_nil]
          exact ⟨viable, follows⟩
      | cons character tail =>
          have place : (Failure.unexpected (character :: tail)).inText
              (consumed ++ character :: tail) =
                .unexpectedCharacter character consumed.length := by
            simp [Failure.inText]
          have broken := breaks character tail rfl
          rw [Failure.unread, place] at broken
          rw [Failure.unread, place]
          refine ⟨?_, ?_, ?_, broken⟩
          · simp
          · rwa [List.take_left]
          · rwa [List.take_left]
  | unclosed unread =>
      obtain ⟨remains, ends⟩ := follows
      have place : (Failure.unclosed unread).inText (consumed ++ unread) =
          .mismatchedParentheses consumed.length := by
        simp [Failure.inText]
      rw [Failure.unread, place]
      refine ⟨?_, ?_, ?_, ?_⟩
      · rwa [List.take_left]
      · rwa [List.take_left]
      · rwa [List.take_left]
      · cases unread with
        | nil => exact .inl (by simp)
        | cons character tail =>
            have broken := breaks character tail rfl
            rw [Failure.unread, place] at broken
            exact .inr broken
  | trailing unread => cases follows
  | tooDeep unread =>
      obtain ⟨all, ends, opening⟩ := follows
      obtain ⟨tail, rfl⟩ := List.head?_eq_some_iff.mp opening
      have calls : EndsIn CallsForOperand consumed := by
        rcases ends with rfl | ends
        · cases all
        · exact ends
      refine ⟨rfl, consumed.length, ?_, ?_, ?_, ?_, breaks '(' tail rfl⟩
      · simp [Failure.unread]
      · rwa [List.take_left]
      · rw [List.take_left, all]
        rfl
      · rwa [List.take_left]

/-- Where text is left over, what stands before it is an expression. -/
theorem explains_of_trailing {text unread : List Char} {tree : Expression}
    (reading : grammar.read text = .ok (tree, unread)) (remains : unread ≠ []) :
    ((Failure.trailing unread).inText text).Explains text := by
  obtain ⟨derivation, shallow, rfl, rfl⟩ := grammar_reads.sound reading
  have failed := parse_of_trailing reading remains
  obtain ⟨character, tail, rfl⟩ := List.exists_cons_of_ne_nil remains
  have place : (Failure.trailing (character :: tail)).inText
      (derivation.text ++ character :: tail) = .trailingInput derivation.text.length := by
    simp [Failure.inText]
  have offends : (Failure.trailing (character :: tail)).unread = character :: tail := rfl
  have broken := breaksAt_of_parse_error failed offends
  rw [Failure.unread, place] at broken
  rw [place]
  refine ⟨?_, ?_, broken⟩
  · obtain ⟨last, inside, -⟩ := derivation.ends_text
    exact List.length_pos_of_mem (List.mem_of_getLast? inside)
  · rw [List.take_left]
    exact ⟨derivation, rfl, shallow⟩

/-- The error for a rejected text names the first place where it goes wrong: the text before that place
begins an accepted expression, the text up to and with the character there does not, and every text
that begins so is rejected with the same error. -/
theorem explains_of_rejected {text : String} {cause : SyntaxError}
    (rejected : evaluate text = .error cause) : cause.Explains (Text.strip text.toList) := by
  cases reading : grammar.read (Text.strip text.toList) with
  | error failure =>
      rw [evaluate_of_parse_error (parse_of_grammar_error reading)] at rejected
      cases rejected
      exact explains_of_grammar_error reading
  | ok result =>
      obtain ⟨tree, unread⟩ := result
      by_cases whole : unread = []
      · subst whole
        have parsed : parse (Text.strip text.toList) = .ok tree := by
          simp only [parse, reading]
        rw [evaluate, ofText, parsed] at rejected
        cases rejected
      · rw [evaluate_of_parse_error (parse_of_trailing reading whole)] at rejected
        cases rejected
        exact explains_of_trailing reading whole

/-- After three numerals in two open parentheses a letter stands where one has to be closed. -/
theorem explains_of_rejected_letter :
    evaluate "2*((1.5 + 3)- 4x)" = .error (.mismatchedParentheses 12) ∧
      (SyntaxError.mismatchedParentheses 12).Explains (Text.strip "2*((1.5 + 3)- 4x)".toList) := by
  have rejected : evaluate "2*((1.5 + 3)- 4x)" = .error (.mismatchedParentheses 12) := by
    decide +kernel
  exact ⟨rejected, explains_of_rejected rejected⟩

end Expression

end FourCards
