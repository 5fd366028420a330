/-
This file computes the values of candidates without their texts and proves that their texts are read
as these values and written with their operands. No two candidates have the same text.
-/

import FourCards.Proofs.Grammar.Writing
import FourCards.Solver

namespace FourCards

/-- How a shape groups the operands in writing; the outermost operation needs no parentheses. -/
def Shape.layout (shape : Shape) (a first b second c third d : String) : String :=
  match shape with
  | .pairs => "(" ++ a ++ first ++ b ++ ")" ++ second ++ "(" ++ c ++ third ++ d ++ ")"
  | .chain => "((" ++ a ++ first ++ b ++ ")" ++ second ++ c ++ ")" ++ third ++ d
  | .nested => "(" ++ a ++ first ++ "(" ++ b ++ second ++ c ++ "))" ++ third ++ d

/-- Different numbers have different numerals. -/
theorem Numeral.ofNat_injective : Function.Injective Numeral.ofNat := by
  intro value other same
  have spelled := congrArg (fun numeral => Text.numberOf numeral.whole) same
  simpa only [Numeral.ofNat, Text.numberOfToDigits] using spelled

namespace Candidate

/-- The operators are applied to the operands themselves, from the inside out. -/
def directValue (candidate : Candidate) : Binary64 :=
  let ⟨a, b, c, d⟩ := candidate.operands.map Binary64.ofNat
  match candidate.shape with
  | .pairs => candidate.second.apply (candidate.first.apply a b) (candidate.third.apply c d)
  | .chain => candidate.third.apply (candidate.second.apply (candidate.first.apply a b) c) d
  | .nested => candidate.third.apply (candidate.first.apply a (candidate.second.apply b c)) d

/-- The value of the expression is computed from the operands. -/
theorem value_expression (candidate : Candidate) :
    candidate.expression.value = candidate.directValue := by
  obtain ⟨⟨a, b, c, d⟩, first, second, third, shape⟩ := candidate
  cases shape <;> simp only [expression, directValue, Four.map, Expression.value,
    Numeral.valueOfNat]

/-- The numerals of a candidate are those of its operands, in order. -/
theorem literals_expression (candidate : Candidate) :
    candidate.expression.literals = candidate.operands.toList.map Numeral.ofNat := by
  obtain ⟨⟨a, b, c, d⟩, first, second, third, shape⟩ := candidate
  cases shape <;> rfl

/-- The numerals of a candidate are spelled. -/
theorem literals_spelled (candidate : Candidate) :
    ∀ numeral ∈ candidate.expression.literals, numeral.Spelled := by
  rw [literals_expression]
  intro numeral inside
  obtain ⟨value, -, rfl⟩ := List.mem_map.mp inside
  exact Numeral.ofNat_spelled value

/-- A candidate is written with at most two parentheses open at once. -/
theorem operandDepth_expression (candidate : Candidate) :
    candidate.expression.operandDepth ≤ 3 := by
  obtain ⟨⟨a, b, c, d⟩, first, second, third, shape⟩ := candidate
  cases shape <;> simp [expression, Four.map, Expression.operandDepth]

/-- The text of a candidate is read as the candidate. -/
theorem ofText_text (candidate : Candidate) :
    Expression.ofText candidate.text = .ok candidate.expression :=
  candidate.expression.ofText_text candidate.literals_spelled
    (Nat.le_trans candidate.operandDepth_expression (by decide))

/-- The text of a candidate is evaluated to its direct value. -/
theorem evaluate_text (candidate : Candidate) :
    Expression.evaluate candidate.text = .ok candidate.directValue := by
  rw [Expression.evaluate, ofText_text, Except.map, value_expression]

/-- The numbers in the text of a candidate are its operands, as long as these are not capped. -/
theorem numbers_text (candidate : Candidate)
    (uncapped : ∀ operand ∈ candidate.operands.toList, operand ≤ Text.largestNumber) :
    Text.numbers candidate.text.toList = candidate.operands.toList := by
  have number (operand : Nat) (inside : operand ∈ candidate.operands.toList) :
      (Numeral.ofNat operand).numbers = [operand] := by
    rw [Numeral.numbers_of_whole rfl, Numeral.ofNat, Text.numberOfToDigits,
      Nat.min_eq_left (uncapped operand inside)]
  rw [text, candidate.expression.numbers_text candidate.literals_spelled, literals_expression,
    List.flatMap_map, List.flatMap_congr number, List.flatMap_singleton']

/-- The text of a candidate begins with a parenthesis. -/
theorem text_not_isBlank (candidate : Candidate) : isBlank candidate.text = false := by
  have opening : ∃ tail, candidate.text.toList = '(' :: tail := by
    obtain ⟨⟨a, b, c, d⟩, first, second, third, shape⟩ := candidate
    rw [text, Expression.text, String.toList_ofList]
    cases shape <;> exact ⟨_, rfl⟩
  obtain ⟨tail, written⟩ := opening
  rw [isBlank, written, List.all_cons]
  rfl

/-- The operands are written in decimal, with their operators and without blanks. -/
def display (candidate : Candidate) : String :=
  let ⟨a, b, c, d⟩ := candidate.operands.map Nat.repr
  candidate.shape.layout a (String.singleton candidate.first.symbol) b
    (String.singleton candidate.second.symbol) c (String.singleton candidate.third.symbol) d

/-- The text of a candidate is laid out by its shape. -/
theorem text_eq_display (candidate : Candidate) : candidate.text = candidate.display := by
  obtain ⟨⟨a, b, c, d⟩, first, second, third, shape⟩ := candidate
  apply String.toList_injective
  rw [text, Expression.text, String.toList_ofList]
  cases shape <;>
    simp [display, Shape.layout, expression, Four.map, Expression.write, Expression.writeOperand,
      Numeral.write, Numeral.ofNat]

/-- The text of a candidate of bytes is laid out by its shape. It evaluates to the value of the
operators applied in this grouping, and the numbers in it are the operands in their order. -/
theorem text_reads_back (candidate : Candidate)
    (bytes : ∀ operand ∈ candidate.operands.toList, operand ≤ 255) :
    candidate.text = candidate.display ∧
      Expression.evaluate candidate.text = .ok candidate.directValue ∧
        Text.numbers candidate.text.toList = candidate.operands.toList := by
  have uncapped : ∀ operand ∈ candidate.operands.toList, operand ≤ Text.largestNumber :=
    fun operand inside => (bytes operand inside).trans (by decide)
  exact ⟨candidate.text_eq_display, candidate.evaluate_text, candidate.numbers_text uncapped⟩

/-- A candidate with the least and the greatest byte, which divides by zero. -/
theorem text_reads_back_zeroDivisor :
    text ⟨⟨255, 10, 7, 0⟩, .sub, .mul, .div, .nested⟩ = "(255-(10*7))/0" ∧
      Expression.evaluate "(255-(10*7))/0" = .ok (.infinity false) ∧
        Text.numbers "(255-(10*7))/0".toList = [255, 10, 7, 0] := by
  have written : text ⟨⟨255, 10, 7, 0⟩, .sub, .mul, .div, .nested⟩ = "(255-(10*7))/0" := rfl
  have value : directValue ⟨⟨255, 10, 7, 0⟩, .sub, .mul, .div, .nested⟩ = .infinity false := by
    decide +kernel
  obtain ⟨-, evaluated, numbers⟩ :=
    text_reads_back ⟨⟨255, 10, 7, 0⟩, .sub, .mul, .div, .nested⟩ (by decide)
  rw [written] at evaluated numbers
  exact ⟨written, evaluated.trans (congrArg _ value), numbers⟩

/-- Different candidates are different expressions. -/
theorem expression_injective : Function.Injective expression := by
  intro candidate other same
  obtain ⟨⟨a, b, c, d⟩, first, second, third, shape⟩ := candidate
  obtain ⟨⟨a', b', c', d'⟩, first', second', third', shape'⟩ := other
  -- Different shapes differ in where numerals stand, and equal ones have everything in place.
  cases shape <;> cases shape' <;>
    simp_all [expression, Four.map, Numeral.ofNat_injective.eq_iff]

/-- Candidates with the same text are read as the same candidate. -/
theorem text_injective : Function.Injective text := by
  intro candidate other same
  have reading := candidate.ofText_text
  rw [same, other.ofText_text] at reading
  exact expression_injective (Except.ok.inj reading).symm

end Candidate

/-- A text of a candidate makes the target exactly if the value of the candidate is the target. -/
theorem Solver.makes_text (target : Binary64) (candidate : Candidate) :
    makes target candidate.text = candidate.directValue.equals target := by
  rw [makes, candidate.evaluate_text]

end FourCards
