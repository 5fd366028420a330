/-
This file reads expressions by the grammar

  expression := term (("+" | "-") term)*
  term       := factor (("*" | "/") factor)*
  factor     := "(" expression ")" | numeral
  numeral    := digit+ ("." digit+)?

with a bounded number of parentheses open at any place.
-/

import FourCards.Expression.Basic
import FourCards.Text.Whitespace

namespace FourCards

/-- Why reading stopped, with the text from there on. -/
inductive Failure where
  | unexpected (unread : List Char)
  | unclosed (unread : List Char)
  | trailing (unread : List Char)
  | tooDeep (unread : List Char)
deriving DecidableEq

/-- A reader takes a value off the front of a text and uses up at least one character. -/
structure Reader (α : Type) where
  read : List Char → Except Failure (α × List Char)
  shortens : ∀ {text : List Char} {value : α} {rest : List Char},
    read text = .ok (value, rest) → rest.length < text.length

namespace Expression

def readNumeral (text : List Char) : Except Failure (Expression × List Char) :=
  let whole := text.takeWhile Char.isDigit
  if whole = [] then .error (.unexpected text)
  else
    match text.dropWhile Char.isDigit with
    | '.' :: tail =>
        let decimals := tail.takeWhile Char.isDigit
        if decimals = [] then .error (.unexpected tail)
        else .ok (.literal ⟨whole, decimals⟩, tail.dropWhile Char.isDigit)
    | rest => .ok (.literal ⟨whole, []⟩, rest)

theorem lengthDropDigits (text : List Char) :
    (text.dropWhile Char.isDigit).length ≤ text.length :=
  (List.dropWhile_sublist Char.isDigit).length_le

theorem lengthDropNumeral {text : List Char} (digits : text.takeWhile Char.isDigit ≠ []) :
    (text.dropWhile Char.isDigit).length < text.length := by
  have joined := congrArg List.length (List.takeWhile_append_dropWhile
    (p := Char.isDigit) (l := text))
  have := List.length_pos_iff.mpr digits
  simp only [List.length_append] at joined
  omega

def numeral : Reader Expression where
  read := readNumeral
  shortens := by
    intro text value rest reading
    simp only [readNumeral] at reading
    split at reading
    · cases reading
    · rename_i digits
      have dropped := lengthDropNumeral digits
      split at reading
      · rename_i tail split
        rw [split, List.length_cons] at dropped
        split at reading
        · cases reading
        · cases reading
          have := lengthDropDigits tail
          omega
      · cases reading
        exact dropped

/-- Goes on reading operands after the operators that are accepted, grouping from the left. -/
def readChain (accepts : Operator → Bool) (operand : Reader Expression) (left : Expression) :
    List Char → Except Failure (Expression × List Char)
  | [] => .ok (left, [])
  | symbol :: tail =>
      match (Operator.ofSymbol? symbol).filter accepts with
      | none => .ok (left, symbol :: tail)
      | some operator =>
          match _reading : operand.read tail with
          | .error failure => .error failure
          | .ok (right, rest) =>
              readChain accepts operand (.apply operator left right) rest
termination_by text => text.length
decreasing_by
  have := operand.shortens ‹_›
  simp only [List.length_cons]
  omega

theorem readChainLength {accepts : Operator → Bool} {operand : Reader Expression}
    {left value : Expression} {text rest : List Char}
    (reading : readChain accepts operand left text = .ok (value, rest)) :
    rest.length ≤ text.length := by
  fun_induction readChain accepts operand left text with
  | case1 left => cases reading; exact Nat.le_refl _
  | case2 left symbol tail => cases reading; exact Nat.le_refl _
  | case3 => cases reading
  | case4 left symbol tail operator _ right unread operandReading inductionHypothesis =>
      have shorter := operand.shortens operandReading
      have := inductionHypothesis reading
      simp only [List.length_cons]
      omega

/-- Operands joined by the operators that are accepted. -/
def chain (accepts : Operator → Bool) (operand : Reader Expression) : Reader Expression where
  read text :=
    match operand.read text with
    | .error failure => .error failure
    | .ok (left, rest) => readChain accepts operand left rest
  shortens := by
    intro text value rest reading
    split at reading
    · cases reading
    · rename_i left unread operandReading
      exact Nat.lt_of_le_of_lt (readChainLength reading) (operand.shortens operandReading)

/-- What `inner` reads, between parentheses. -/
def parenthesized (inner : Reader Expression) : Reader Expression where
  read
    | '(' :: tail =>
        match inner.read tail with
        | .error failure => .error failure
        | .ok (value, ')' :: rest) => .ok (value, rest)
        | .ok (_, rest) => .error (.unclosed rest)
    | text => .error (.unexpected text)
  shortens := by
    intro text value rest reading
    split at reading
    · split at reading
      · cases reading
      · rename_i innerReading
        cases reading
        have := inner.shortens innerReading
        simp only [List.length_cons] at this ⊢
        omega
      · cases reading
    · cases reading

/-- Refuses to open a parenthesis. -/
def refusal : Reader Expression where
  read text := .error (.tooDeep text)
  shortens := by
    intro text value rest reading
    cases reading

def factor (group : Reader Expression) : Reader Expression where
  read
    | '(' :: tail => group.read ('(' :: tail)
    | text => numeral.read text
  shortens := by
    intro text value rest reading
    split at reading
    · exact group.shortens reading
    · exact numeral.shortens reading

def term (group : Reader Expression) : Reader Expression :=
  chain (fun operator => !operator.isAdditive) (factor group)

def expression (group : Reader Expression) : Reader Expression :=
  chain Operator.isAdditive (term group)

/-- An expression in parentheses, in which so many more parentheses may be open at a place. -/
def group : Nat → Reader Expression
  | 0 => refusal
  | allowance + 1 => parenthesized (expression (group allowance))

def deepestNesting : Nat := 256

def grammar : Reader Expression :=
  expression (group deepestNesting)

/-- Reads the whole of a text without whitespace. -/
def parse (text : List Char) : Except Failure Expression :=
  match grammar.read text with
  | .error failure => .error failure
  | .ok (value, []) => .ok value
  | .ok (_, rest) => .error (.trailing rest)

end Expression

/-- The place and kind of a failure in the text that was to be read. -/
def Failure.inText (text : List Char) : Failure → SyntaxError
  | unexpected [] => .unexpectedEnd
  | unexpected (found :: tail) =>
      .unexpectedCharacter found (text.length - (tail.length + 1))
  | unclosed unread => .mismatchedParentheses (text.length - unread.length)
  | trailing unread => .trailingInput (text.length - unread.length)
  | tooDeep _ => .nestingTooDeep Expression.deepestNesting

namespace Expression

/-- Reads a text, of which ASCII whitespace is no part. -/
def ofText (text : String) : Except SyntaxError Expression :=
  let stripped := Text.strip text.toList
  (parse stripped).mapError (Failure.inText stripped)

def evaluate (text : String) : Except SyntaxError Binary64 :=
  (ofText text).map Expression.value

end Expression

end FourCards
