/-
This file proves that an expression is read back from what is written for it.
-/

import FourCards.Proofs.Grammar.Numbers

namespace FourCards

open Grammar

/-- The digits of a number are a numeral of the grammar. -/
theorem Numeral.ofNat_spelled (value : Nat) : (Numeral.ofNat value).Spelled where
  wholeNonempty := Nat.toDigits_ne_nil
  wholeDigits _ inside := Nat.isDigit_of_mem_toDigits (by decide) (by decide) inside
  decimalDigits := by simp [ofNat]

/-- The greatest number of parentheses that are open at once where the expression is an operand. -/
def Expression.operandDepth : Expression → Nat
  | .literal _ => 0
  | .apply _ left right => max left.operandDepth right.operandDepth + 1

namespace Grammar.Derivation

def ofFactor {additive : Bool} (first : Derivation (.complete (.operand additive))) :
    Derivation (.complete (.chain additive)) :=
  .chain first .done

/-- Two factors with an operator between them: a product, or a sum of two products. -/
def join (operator : Operator) (left right : Derivation (.complete .factor)) :
    Derivation (.complete .expression) :=
  match kind : operator.isAdditive with
  | true =>
      .chain (ofFactor (left : Derivation (.complete (.operand false))))
        (.more operator kind (ofFactor (right : Derivation (.complete (.operand false)))) .done)
  | false => ofFactor (.chain left (.more operator kind right .done) :
      Derivation (.complete (.chain false)))

variable (operator : Operator) (left right : Derivation (.complete .factor))

/-- The operator is written between its operands. -/
theorem text_join : (join operator left right).text =
    left.text ++ operator.symbol :: right.text := by
  unfold join
  split <;> simp only [ofFactor, text, List.append_nil] <;> rfl

theorem tree_join : (join operator left right).tree =
    Expression.apply operator left.tree right.tree := by
  unfold join
  split <;> rfl

/-- Joining two factors opens no parenthesis. -/
theorem depth_join : (join operator left right).depth = max left.depth right.depth := by
  unfold join
  split <;> simp only [ofFactor, depth, Nat.max_zero] <;> rfl

/-- No whitespace is derived. -/
theorem text_not_blank {phrase : Phrase} (derivation : Derivation phrase) :
    ∀ character ∈ derivation.text, Text.isAsciiWhitespace character = false := by
  induction derivation with
  | numeral number spelled =>
      intro character inside
      simp only [text, Numeral.write] at inside
      split at inside
      · exact Text.isAsciiWhitespace_of_digit (spelled.wholeDigits character inside)
      · rcases List.mem_append.mp inside with whole | decimal
        · exact Text.isAsciiWhitespace_of_digit (spelled.wholeDigits character whole)
        · rcases List.mem_cons.mp decimal with rfl | decimal
          · decide
          · exact Text.isAsciiWhitespace_of_digit (spelled.decimalDigits character decimal)
  | group inner inductionHypothesis =>
      intro character inside
      simp only [text, List.mem_cons, List.mem_append, List.not_mem_nil, or_false] at inside
      rcases inside with rfl | inside | rfl
      · decide
      · exact inductionHypothesis character inside
      · decide
  | chain first others firstHypothesis othersHypothesis =>
      intro character inside
      rcases List.mem_append.mp inside with inside | inside
      · exact firstHypothesis character inside
      · exact othersHypothesis character inside
  | done => simp [text]
  | more operator kind next others nextHypothesis othersHypothesis =>
      intro character inside
      simp only [text, List.mem_cons, List.mem_append] at inside
      rcases inside with rfl | inside | inside
      · cases operator <;> decide
      · exact nextHypothesis character inside
      · exact othersHypothesis character inside

/-- There is no whitespace to strip from what is derived. -/
theorem strip_text {phrase : Phrase} (derivation : Derivation phrase) :
    Text.strip derivation.text = derivation.text := by
  refine List.filter_eq_self.mpr fun character inside => ?_
  rw [derivation.text_not_blank character inside, Bool.not_false]

end Grammar.Derivation

/-- The text is derived to the tree, with as many parentheses open at once. -/
def Grammar.Derives (level : Level) (text : List Char) (tree : Expression) (depth : Nat) : Prop :=
  ∃ derivation : Derivation (.complete level),
    derivation.text = text ∧ derivation.tree = tree ∧ derivation.depth = depth

namespace Grammar.Derives

variable {text leftText rightText : List Char} {tree left right : Expression}
  {depth leftDepth rightDepth : Nat}

/-- Parentheses around an expression make a factor that is one deeper. -/
theorem group (inner : Derives .expression text tree depth) :
    Derives .factor ('(' :: (text ++ [')'])) tree (depth + 1) := by
  obtain ⟨derivation, rfl, rfl, rfl⟩ := inner
  exact ⟨.group derivation, rfl, rfl, rfl⟩

/-- Two factors with an operator between them make an expression. -/
theorem apply (operator : Operator) (leftDerives : Derives .factor leftText left leftDepth)
    (rightDerives : Derives .factor rightText right rightDepth) :
    Derives .expression (leftText ++ operator.symbol :: rightText) (.apply operator left right)
      (max leftDepth rightDepth) := by
  obtain ⟨leftDerivation, rfl, rfl, rfl⟩ := leftDerives
  obtain ⟨rightDerivation, rfl, rfl, rfl⟩ := rightDerives
  exact ⟨.join operator leftDerivation rightDerivation, Derivation.text_join ..,
    Derivation.tree_join .., Derivation.depth_join ..⟩

/-- A factor is an expression by itself. -/
theorem ofFactor (factor : Derives .factor text tree depth) :
    Derives .expression text tree depth := by
  obtain ⟨derivation, rfl, rfl, rfl⟩ := factor
  refine ⟨.ofFactor (.ofFactor (derivation : Derivation (.complete (.operand false))) :
    Derivation (.complete (.operand true))), ?_, rfl, ?_⟩
  · exact (List.append_nil _).trans (List.append_nil _)
  · exact (Nat.max_zero _).trans (Nat.max_zero _)

end Grammar.Derives

namespace Expression

/-- What is written for an operand is a factor of the grammar. -/
theorem derives_writeOperand (expression : Expression)
    (spelled : ∀ numeral ∈ expression.literals, numeral.Spelled) :
    Derives .factor expression.writeOperand expression expression.operandDepth := by
  induction expression with
  | literal numeral => exact ⟨.numeral numeral (spelled numeral (by simp [literals])), rfl, rfl, rfl⟩
  | apply operator left right leftHypothesis rightHypothesis =>
      obtain ⟨leftSpelled, rightSpelled⟩ := List.forall_mem_append.mp spelled
      have leftDerives := leftHypothesis leftSpelled
      have rightDerives := rightHypothesis rightSpelled
      rw [writeOperand, List.cons_append]
      exact (leftDerives.apply operator rightDerives).group

/-- What is written for an expression is derived by the grammar, to its tree. -/
theorem derives_write (expression : Expression)
    (spelled : ∀ numeral ∈ expression.literals, numeral.Spelled) :
    Derives .expression expression.write expression (expression.operandDepth - 1) := by
  cases expression with
  | literal numeral => exact (derives_writeOperand (.literal numeral) spelled).ofFactor
  | apply operator left right =>
      obtain ⟨leftSpelled, rightSpelled⟩ := List.forall_mem_append.mp spelled
      have leftDerives := left.derives_writeOperand leftSpelled
      have rightDerives := right.derives_writeOperand rightSpelled
      exact leftDerives.apply operator rightDerives

/-- An expression whose numerals are spelled by digits is read back from its text, if its text opens
no more than 256 parentheses at once. -/
theorem ofText_text (expression : Expression)
    (spelled : ∀ numeral ∈ expression.literals, numeral.Spelled)
    (shallow : expression.operandDepth ≤ 257) : ofText expression.text = .ok expression := by
  obtain ⟨derivation, written, same, depth⟩ := expression.derives_write spelled
  refine ofText_eq_ok_iff.mpr ⟨derivation, ?_, by omega, same⟩
  rw [text, String.toList_ofList, ← written, derivation.strip_text]

/-- The numbers of an expression's text are those of its numerals. -/
theorem numbers_text (expression : Expression)
    (spelled : ∀ numeral ∈ expression.literals, numeral.Spelled) :
    Text.numbers expression.text.toList = expression.literals.flatMap Numeral.numbers := by
  obtain ⟨derivation, written, same, -⟩ := expression.derives_write spelled
  rw [text, String.toList_ofList, ← written, derivation.numbers_text, ← derivation.literals_tree,
    same]

end Expression

end FourCards
