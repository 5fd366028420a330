/-
This file proves that a deal is fair: it is the front of an order of the cards that is settled by the
places picked in the shuffle, and all hands come from equally many choices of them.
-/

import FourCards.Proofs.Game.Session

namespace FourCards

namespace Deck

/-- Every card is in the deck. -/
theorem mem_cards (card : Card) : card ∈ cards := by
  obtain ⟨rank, suit⟩ := card
  cases rank <;> cases suit <;> decide

/-- Four cards are dealt if the shuffled deck begins with them. -/
theorem dealBy_eq_iff {choices : Choices 51} {four : Four Card} :
    dealBy choices = four ↔ (shuffleBy choices row).toList.take four.toList.length = four.toList := by
  rw [Four.toListLength, ← toList_topFour, ← dealBy]
  exact ⟨congrArg Four.toList, Four.toListInj⟩

/-- Four different cards and the others make up the deck. -/
theorem exists_rest {four : Four Card} (distinct : four.toList.Nodup) :
    ∃ rest : List Card, rest.length = 48 ∧ (four.toList ++ rest).Perm row.toList := by
  have whole : (four.toList ++ cards.diff four.toList).Perm cards := by
    refine List.subperm_append_diff_self_of_count_le fun card inside => ?_
    rw [List.count_eq_one_of_mem distinct inside, List.count_eq_one_of_mem cards_nodup (mem_cards card)]
  have lengths := whole.length_eq
  rw [List.length_append, Four.toListLength, cardsLength] at lengths
  exact ⟨cards.diff four.toList, by omega, whole⟩

/-- Four different cards are dealt by as many choices as there are orders of the other cards. -/
theorem card_dealBy {four : Four Card} (distinct : four.toList.Nodup) :
    Fintype.card {choices : Choices 51 // dealBy choices = four} = Nat.factorial 48 := by
  obtain ⟨rest, count, whole⟩ := exists_rest distinct
  have rowDistinct : row.toList.Nodup := cards_nodup
  rw [Fintype.card_congr (Equiv.subtypeEquivRight fun choices => dealBy_eq_iff), ← count]
  exact card_choices_of_front rowDistinct whole

end Deck

/-- No deal takes cards out of the deck of a game. -/
theorem Session.deck_newHands {σ : Type} [WordSource σ] (session : Session σ) (deals : Nat) :
    (newHand^[deals] session).deck = session.deck := by
  induction deals with
  | zero => rfl
  | succ deals kept =>
      rw [Function.iterate_succ_apply']
      exact kept

/-- A deal comes about if a place is drawn for each swap of the shuffle, from the last place of the deck
down to the second one. It then deals the first four cards of the deck after these swaps, so four
different cards of the deck, whatever its slots held before, and the deck of a game stays as it was. Any
four different cards, one after another, are dealt by 48! choices of places. -/
theorem Deck.deal_fair {σ : Type} [WordSource σ] :
    (∀ source : σ, deal? source =
      (Choices.draw Draw.pick 51 source).map fun drawn => (dealBy drawn.1, drawn.2)) ∧
    (∀ (source rest : σ) (choices : Choices 51),
      Choices.draw Draw.pick 51 source = some (choices, rest) →
      let shuffled := (List.finRange 51).foldr choices.swapAt row
      deal source = (dealBy choices, rest) ∧ shuffled.toList.Perm cards ∧
        (deal source).1.toList = shuffled.toList.take 4 ∧
        (∀ held : Four Card, held.overwrite shuffled.toList = (deal source).1) ∧
        (deal source).1.toList.Nodup ∧ (deal source).1.toList ⊆ cards) ∧
    (∀ (session : Session σ) (deals : Nat), (Session.newHand^[deals] session).deck = session.deck) ∧
    (∀ choices : Choices 51, dealBy choices = topFour ((List.finRange 51).foldr choices.swapAt row)) ∧
    ∀ four : Four Card, four.toList.Nodup →
      Fintype.card {choices : Choices 51 // dealBy choices = four} = Nat.factorial 48 := by
  have swaps (choices : Choices 51) :
      shuffleBy choices row = (List.finRange 51).foldr choices.swapAt row :=
    shuffleBy_eq_swaps choices row
  refine ⟨deal?_eq, ?_, fun session deals => session.deck_newHands deals, fun choices => ?_,
    fun four distinct => card_dealBy distinct⟩
  · intro source rest choices drawn
    have found : deal? source = some (dealBy choices, rest) := by
      rw [deal?_eq, drawn, Option.map_some]
    have dealt := deal_of_deal? found
    have front : (deal source).1.toList =
        ((List.finRange 51).foldr choices.swapAt row).toList.take 4 := by
      rw [dealt, dealBy, toList_topFour, swaps]
    refine ⟨dealt, ?_, front, fun held => Four.toListInj ?_, nodup_deal source, deal_subset source⟩
    · rw [← swaps]
      exact shuffleBy_perm choices row
    · rw [front, Four.toListOverwrite _ (by simp)]
  · rw [← swaps, dealBy]

/-- A deal for which some words are refused, and the number of ways to come by its cards. -/
theorem Deck.deal_fair_congruential :
    let source := Source.congruential 35
    let rest := Source.congruential 4106657633821326177
    let hand : Four Card := ⟨⟨.king, .clubs⟩, ⟨.six, .spades⟩, ⟨.seven, .clubs⟩, ⟨.jack, .hearts⟩⟩
    (∃ choices : Choices 51, Choices.draw Draw.pick 51 source = some (choices, rest) ∧
      deal source = (hand, rest) ∧
      ((List.finRange 51).foldr choices.swapAt row).toList.take 4 = hand.toList) ∧
    hand.toList.Nodup ∧
      Fintype.card {choices : Choices 51 // dealBy choices = hand} = Nat.factorial 48 := by
  intro source rest hand
  obtain ⟨drawn, dealt, -, -, counted⟩ := @deal_fair Source _
  have found : deal? source = some (hand, rest) := deal?_congruential.1
  have distinct : hand.toList.Nodup := by decide
  obtain ⟨⟨choices, left⟩, picked, same⟩ := Option.map_eq_some_iff.mp ((drawn source).symm.trans found)
  obtain ⟨sameHand, rfl⟩ := Prod.mk.inj same
  obtain ⟨whole, -, top, -⟩ := dealt source _ choices picked
  refine ⟨⟨choices, picked, whole.trans same, ?_⟩, distinct, counted hand distinct⟩
  rw [← top, whole, sameHand]

end FourCards
