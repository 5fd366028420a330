/-
This file defines the playing cards and the values they have in the game.
-/

namespace FourCards

inductive Suit where
  | spades | hearts | diamonds | clubs
deriving DecidableEq

namespace Suit

def all : List Suit := [spades, hearts, diamonds, clubs]

def name : Suit → String
  | spades => "Spades"
  | hearts => "Hearts"
  | diamonds => "Diamonds"
  | clubs => "Clubs"

end Suit

inductive Rank where
  | ace | two | three | four | five | six | seven | eight | nine | ten | jack | queen | king
deriving DecidableEq

namespace Rank

def all : List Rank :=
  [ace, two, three, four, five, six, seven, eight, nine, ten, jack, queen, king]

/-- An ace counts one, and the court cards go on after ten. -/
def value : Rank → Nat
  | ace => 1
  | two => 2
  | three => 3
  | four => 4
  | five => 5
  | six => 6
  | seven => 7
  | eight => 8
  | nine => 9
  | ten => 10
  | jack => 11
  | queen => 12
  | king => 13

def ofValue? (value : Nat) : Option Rank :=
  all.find? fun rank => rank.value = value

def name : Rank → String
  | ace => "Ace"
  | two => "2"
  | three => "3"
  | four => "4"
  | five => "5"
  | six => "6"
  | seven => "7"
  | eight => "8"
  | nine => "9"
  | ten => "10"
  | jack => "Jack"
  | queen => "Queen"
  | king => "King"

theorem ofValueValue (rank : Rank) : ofValue? rank.value = some rank := by
  cases rank <;> rfl

theorem valueInRange (rank : Rank) : 1 ≤ rank.value ∧ rank.value ≤ 13 := by
  cases rank <;> decide

end Rank

structure Card where
  rank : Rank
  suit : Suit
deriving DecidableEq

namespace Card

def value (card : Card) : Nat := card.rank.value

def text (card : Card) : String :=
  card.rank.name ++ " of " ++ card.suit.name

end Card

end FourCards
