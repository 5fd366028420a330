/-
This file follows a game through a run of requests and proves that it keeps the settings it was
started with, and that the number of new hands it has dealt decides what else it holds.
-/

import FourCards.Game.Table
import FourCards.Proofs.Game.Deal

namespace FourCards

namespace Session

variable {σ : Type} [WordSource σ]

/-- The requests are served in turn. -/
def after (session : Session σ) (requests : List Request) : Session σ :=
  requests.foldl (fun current request => (current.serve request).2) session

/-- Answers are judged by these settings, and the search is for their target. -/
structure Follows (session : Session σ) (settings : Settings) : Prop where
  judged : session.settings = settings
  searched : session.searchTarget = settings.target

/-- A game is started with its settings. -/
theorem start_follows (settings : Settings) (source : σ) : (start settings source).Follows settings :=
  ⟨rfl, rfl⟩

/-- No request changes the settings. -/
theorem serve_follows {session : Session σ} {settings : Settings} (follows : session.Follows settings)
    (request : Request) : (session.serve request).2.Follows settings where
  judged := (serveSettings session request).trans follows.judged
  searched := by
    cases request <;> exact follows.searched

/-- No run of requests changes the settings. -/
theorem after_follows {session : Session σ} {settings : Settings} (follows : session.Follows settings)
    (requests : List Request) : (session.after requests).Follows settings := by
  induction requests generalizing session with
  | nil => exact follows
  | cons request requests unchanged => exact unchanged (serve_follows follows request)

/-- The deck is whole at every deal, and the source is where the deals before have left it. -/
theorem newHands_start (settings : Settings) (source : σ) (newHands : Nat) :
    newHand^[newHands] (start settings source) =
      ⟨Deck.row, Deck.sourceAfter source (newHands + 1), Deck.dealAfter source newHands, settings,
        settings.target⟩ := by
  induction newHands with
  | zero => rfl
  | succ newHands dealt =>
      rw [Function.iterate_succ_apply', dealt]
      rfl

/-- A game that has dealt two hands. -/
def dealtTwice (settings : Settings) : Session Source :=
  ⟨Deck.row, .congruential 4535472453719432375,
    ⟨⟨.nine, .diamonds⟩, ⟨.jack, .clubs⟩, ⟨.seven, .clubs⟩, ⟨.king, .spades⟩⟩, settings,
    settings.target⟩

/-- One new hand after the first makes two. -/
theorem newHand_congruential (settings : Settings) :
    (start settings (Source.congruential 35)).newHand = dealtTwice settings := by
  have first := Deck.deal_of_deal? Deck.deal?_congruential.1
  have second := Deck.deal_of_deal? Deck.deal?_congruential.2
  have dealt := newHands_start settings (Source.congruential 35) 1
  rw [Deck.dealAfter, Deck.sourceAfter, Deck.sourceAfter, Deck.sourceAfter, first, second] at dealt
  exact dealt

/-- What holds of a game at any time: its cards are those of the deal after so many others from its
own source, and its settings are those it was started with. -/
structure Keeps (session : Session σ) (settings : Settings) (source : σ) (newHands : Nat) :
    Prop where
  apart : session.cards.toList.Nodup
  inDeck : ∀ card ∈ session.cards.toList, card ∈ Deck.cards
  values : session.hand.toList = session.cards.toList.map Card.value
  inRange : ∀ value ∈ session.hand.toList, 1 ≤ value ∧ value ≤ 13
  wholeDeck : session.deck = Deck.row
  dealt : session.cards = Deck.dealAfter source newHands
  follows : session.Follows settings

/-- However many new hands are asked for, the game keeps to its source and its settings. -/
theorem newHands_keeps (settings : Settings) (source : σ) (newHands : Nat) :
    (newHand^[newHands] (start settings source)).Keeps settings source newHands := by
  rw [newHands_start]
  exact {
    apart := Deck.nodup_deal _
    inDeck := fun card inside => Deck.deal_subset _ inside
    values := Four.toListMap Card.value _
    inRange := Hand.inRange _
    wholeDeck := rfl
    dealt := rfl
    follows := ⟨rfl, rfl⟩ }

end Session

end FourCards
