/-
This file defines the four card values in play and the reasons for which values are refused. A hand
can be read from a text of values between commas and whitespace.
-/

import FourCards.Card
import FourCards.Four
import FourCards.Text.Digits
import FourCards.Text.Whitespace

namespace FourCards

/-- Values as they are shown, in brackets and separated by commas. -/
def listText (values : List Nat) : String :=
  "[" ++ ", ".intercalate (values.map Nat.repr) ++ "]"

inductive HandError where
  | valueOutOfRange (value : Nat)
  | wrongSize (count : Nat)
  | invalidValue (text : String)
deriving DecidableEq

def HandError.message : HandError → String
  | valueOutOfRange value => "Card value must be between 1 and 13, got " ++ value.repr
  | wrongSize count => "A hand needs exactly 4 cards, got " ++ count.repr
  | invalidValue text => "Invalid card value: '" ++ text ++ "'"

/-- The values keep the order in which they were dealt or written; equal ones are allowed. -/
structure Hand where
  values : Four Nat
  inRange : ∀ value ∈ values.toList, 1 ≤ value ∧ value ≤ 13
deriving DecidableEq

namespace Hand

/-- The first value outside the range is the one complained of. -/
def ofValues (values : Four Nat) : Except HandError Hand :=
  match search : values.toList.find? fun value => ¬ (1 ≤ value ∧ value ≤ 13) with
  | some value => .error (.valueOutOfRange value)
  | none => .ok ⟨values, by simpa [Nat.one_le_iff_ne_zero] using search⟩

def ofList (values : List Nat) : Except HandError Hand :=
  match Four.ofList? values with
  | some four => ofValues four
  | none => .error (.wrongSize values.length)

def ofCards (cards : Four Card) : Hand where
  values := cards.map Card.value
  inRange := by
    simp only [Four.toListMap, List.mem_map]
    rintro _ ⟨card, -, rfl⟩
    exact card.rank.valueInRange

def toList (hand : Hand) : List Nat := hand.values.toList

def sorted (hand : Hand) : List Nat := hand.toList.mergeSort

def text (hand : Hand) : String := listText hand.toList

theorem ofValuesValues (hand : Hand) : ofValues hand.values = .ok hand := by
  unfold ofValues
  split
  case h_1 value search =>
    have outside := List.find?_some search
    simp [hand.inRange value (List.mem_of_find?_eq_some search)] at outside
  case h_2 => rfl

/-- The nonempty pieces between commas and whitespace. -/
def pieces (text : List Char) : List (List Char) :=
  (text.splitOnP fun character => character = ',' || Text.isWhitespace character).filter
    fun piece => !piece.isEmpty

def readValue (piece : List Char) : Except HandError Nat :=
  match Text.readNumber? 255 piece with
  | some value => .ok value
  | none => .error (.invalidValue (String.ofList piece))

/-- Pieces that are no values are complained of first, then their count, then their range. -/
def parse (text : String) : Except HandError Hand := do
  ofList (← (pieces text.toList).mapM readValue)

end Hand

end FourCards
