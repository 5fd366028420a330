/-
This file defines a player's game: its deck, its source of random words, the cards on the table, its
settings and the target of its search.
-/

import FourCards.Deck
import FourCards.Game.Values

namespace FourCards

/-- The search has a target of its own beside that of the settings. -/
structure Session (σ : Type) where
  deck : Vector Card 52
  source : σ
  cards : Four Card
  settings : Settings
  searchTarget : Binary64

namespace Session

variable {σ : Type}

/-- A game begins with a deal. -/
def start [WordSource σ] (settings : Settings) (source : σ) : Session σ :=
  let dealt := Deck.deal source
  ⟨Deck.row, dealt.2, dealt.1, settings, settings.target⟩

def hand (session : Session σ) : Hand :=
  Hand.ofCards session.cards

/-- A new hand is dealt with what is left of the source. -/
def newHand [WordSource σ] (session : Session σ) : Session σ :=
  let dealt := Deck.dealFrom session.deck session.source
  { session with source := dealt.2, cards := dealt.1 }

theorem startSettings [WordSource σ] (settings : Settings) (source : σ) :
    (start settings source).settings = settings := rfl

theorem newHandSettings [WordSource σ] (session : Session σ) :
    session.newHand.settings = session.settings := rfl

def verify (session : Session σ) (text : String) : Outcome :=
  session.hand.verify session.settings text

def hint (session : Session σ) : Hint :=
  Solver.hint session.searchTarget session.hand

def solutions (session : Session σ) : List String :=
  Solver.solutions session.searchTarget session.hand

end Session

end FourCards
