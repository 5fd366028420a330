/-
This file reads the numbers that are written in a text, without regard to what stands between
them.
-/

namespace FourCards.Text

/-- The number that decimal digits spell; leading zeros count for nothing. -/
def numberOf (digits : List Char) : Nat :=
  Nat.ofDigitChars 10 digits 0

/-- Numbers are counted no further than this. -/
def largestNumber : Nat := UInt64.size - 1

/-- The number with a digit written after it. Neither the product nor the sum is counted further than
the largest number. -/
def appendDigit (number : Nat) (digit : Char) : Nat :=
  min (min (10 * number) largestNumber + (digit.toNat - '0'.toNat)) largestNumber

/-- The numbers in a text. The pending one, if digits were read just before, ends where no digit
follows. -/
def scan (pending : Option Nat) : List Char → List Nat
  | [] => pending.toList
  | character :: text =>
      if character.isDigit then scan (some (appendDigit (pending.getD 0) character)) text
      else pending.toList ++ scan none text

def numbers (text : List Char) : List Nat :=
  scan none text

/-- A number without its plus, if it has one. -/
def unsigned : List Char → List Char
  | '+' :: digits => digits
  | digits => digits

/-- Reads digits after at most one plus, if the number is no larger than `largest`. -/
def readNumber? (largest : Nat) (text : List Char) : Option Nat :=
  let digits := unsigned text
  if digits ≠ [] ∧ digits.all Char.isDigit ∧ numberOf digits ≤ largest then
    some (numberOf digits)
  else none

theorem numberOfToDigits (value : Nat) : numberOf (Nat.toDigits 10 value) = value := by
  simp [numberOf]

end FourCards.Text
