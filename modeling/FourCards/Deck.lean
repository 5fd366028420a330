/-
This file defines the deck of 52 cards, how a row of things is shuffled, and the deal of four cards.
-/

import FourCards.Card
import FourCards.Four
import FourCards.Random.Source

namespace FourCards

/-- Shuffles a row by swapping its last thing with one that is picked, and then shuffling the others.
`pick last` chooses a place up to `last`. -/
def shuffle {m : Type → Type} [Monad m] {α : Type} (pick : (last : Nat) → m (Fin (last + 1))) :
    {size : Nat} → Vector α size → m (Vector α size)
  | 0, row => pure row
  | 1, row => pure row
  | last + 2, row => do
      let place ← pick (last + 1)
      let swapped := row.swap (last + 1) place
      let others ← shuffle pick swapped.pop
      pure (others.push swapped.back)

namespace Deck

/-- The cards in order: rank by rank, the suits in turn. -/
def cards : List Card :=
  Rank.all.flatMap fun rank => Suit.all.map fun suit => ⟨rank, suit⟩

theorem cardsLength : cards.length = 52 := rfl

def row : Vector Card 52 :=
  ⟨cards.toArray, rfl⟩

/-- What a slot of the deal holds before a card is put there. -/
def placeholder : Card := ⟨.ace, .spades⟩

/-- The cards of the row are put in four slots, one after another. -/
def topFour (row : Vector Card 52) : Four Card :=
  (Four.mk placeholder placeholder placeholder placeholder).overwrite row.toList

section

variable {σ : Type} [WordSource σ]

/-- Every deal shuffles the whole deck anew. There is none if a place is never drawn for the shuffle. -/
def dealFrom? (row : Vector Card 52) : StateT σ Option (Four Card) :=
  topFour <$> shuffle Draw.pick row

def deal? : StateT σ Option (Four Card) :=
  dealFrom? row

/-- A deal that never comes about is taken for the top of the row as it lies, so that a game has a state
whatever its source is. -/
@[irreducible]
def dealFrom (row : Vector Card 52) : StateM σ (Four Card) :=
  fun source => (dealFrom? row source).getD (topFour row, source)

def deal : StateM σ (Four Card) :=
  dealFrom row

end

end Deck

end FourCards
