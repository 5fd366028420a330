/-
This file proves that the four cards of a deal are the top of an order of the deck, so that they are
different cards of it. It counts the deals from a source.
-/

import FourCards.Proofs.Game.Shuffle
import FourCards.Proofs.Random.Draw

namespace FourCards

namespace Deck

/-- No card is in the deck twice. -/
theorem cards_nodup : cards.Nodup := by
  decide

/-- A row has cards enough for the four slots. -/
theorem toList_topFour (row : Vector Card 52) : (topFour row).toList = row.toList.take 4 :=
  Four.toListOverwrite _ (by simp)

/-- The cards on top are cards of the row, in their order. -/
theorem topFour_sublist (row : Vector Card 52) : (topFour row).toList.Sublist row.toList := by
  rw [toList_topFour]
  exact List.take_sublist 4 row.toList

/-- The cards that are dealt with these choices. -/
def dealBy (choices : Choices 51) : Four Card :=
  topFour (shuffleBy choices row)

/-- The top of the shuffled deck is what is dealt with the choices that are picked. -/
theorem topFour_shuffle {σ : Type} (pick : (last : Nat) → StateT σ Option (Fin (last + 1))) (source : σ) :
    (topFour <$> shuffle pick row : StateT σ Option (Four Card)) source =
      (Choices.draw pick 51 source).map fun drawn => (dealBy drawn.1, drawn.2) := by
  rw [shuffle_eq_shuffleBy, ← comp_map]
  exact StateT.run_map (topFour ∘ fun choices => shuffleBy choices row) (Choices.draw pick 51) source

variable {σ : Type} [WordSource σ]

/-- A deal is the one with the choices that are drawn for it, and comes about if they do. -/
theorem deal?_eq (source : σ) : deal? source =
    (Choices.draw Draw.pick 51 source).map fun drawn => (dealBy drawn.1, drawn.2) :=
  topFour_shuffle Draw.pick source

/-- A deal that comes about is what is dealt. -/
theorem deal_of_deal? {source : σ} {dealt : Four Card × σ} (found : deal? source = some dealt) :
    deal source = dealt := by
  unfold deal dealFrom
  have found : dealFrom? row source = some dealt := found
  rw [found, Option.getD_some]

/-- What is dealt is the top of the deck in some order, even if the draws for it never end. -/
theorem exists_order (source : σ) :
    ∃ order : Vector Card 52, order.toList.Perm cards ∧ (deal source).1 = topFour order := by
  cases found : deal? source with
  | none =>
      refine ⟨row, .refl _, ?_⟩
      unfold deal dealFrom
      have found : dealFrom? row source = none := found
      rw [found, Option.getD_none]
  | some dealt =>
      obtain ⟨drawn, -, rfl⟩ := Option.map_eq_some_iff.mp ((deal?_eq source).symm.trans found)
      rw [deal_of_deal? found]
      exact ⟨shuffleBy drawn.1 row, shuffleBy_perm drawn.1 row, rfl⟩

/-- The cards of a deal are different from each other. -/
theorem nodup_deal (source : σ) : (deal source).1.toList.Nodup := by
  obtain ⟨order, whole, dealt⟩ := exists_order source
  rw [dealt]
  exact (topFour_sublist order).nodup (whole.nodup_iff.mpr cards_nodup)

/-- The cards of a deal are cards of the deck. -/
theorem deal_subset (source : σ) : (deal source).1.toList ⊆ cards := by
  obtain ⟨order, whole, dealt⟩ := exists_order source
  rw [dealt]
  exact fun card inside => whole.subset ((topFour_sublist order).subset inside)

/-- The deal if for each place one of so many words is accepted. -/
def dealWithin (words : Nat) : StateT σ Option (Four Card) :=
  topFour <$> shuffle (fun last => Draw.upToWithin last words) row

/-- A deal that is found among so many words for each place comes about. -/
theorem deal?_of_dealWithin {words : Nat} {source : σ} {dealt : Four Card × σ}
    (found : dealWithin words source = some dealt) : deal? source = some dealt := by
  rw [dealWithin, topFour_shuffle] at found
  obtain ⟨drawn, within, same⟩ := Option.map_eq_some_iff.mp found
  have picked := Choices.draw_mono (fun _ _ _ => Draw.upTo_of_upToWithin) within
  rw [deal?_eq]
  exact Option.map_eq_some_iff.mpr ⟨drawn, picked, same⟩

/-- Two deals from one source; a few words are refused in each. -/
theorem deal?_congruential :
    deal? (Source.congruential 35) =
        some (⟨⟨.king, .clubs⟩, ⟨.six, .spades⟩, ⟨.seven, .clubs⟩, ⟨.jack, .hearts⟩⟩,
          .congruential 4106657633821326177) ∧
      deal? (Source.congruential 4106657633821326177) =
        some (⟨⟨.nine, .diamonds⟩, ⟨.jack, .clubs⟩, ⟨.seven, .clubs⟩, ⟨.king, .spades⟩⟩,
          .congruential 4535472453719432375) := by
  constructor
  · refine deal?_of_dealWithin (?_ : dealWithin 8 _ = _)
    decide +kernel
  · refine deal?_of_dealWithin (?_ : dealWithin 8 _ = _)
    decide +kernel

/-- What is left of a source after so many deals. -/
def sourceAfter (source : σ) : Nat → σ
  | 0 => source
  | deals + 1 => (deal (sourceAfter source deals)).2

/-- The cards of the deal that comes after so many others from the same source. -/
def dealAfter (source : σ) (deals : Nat) : Four Card :=
  (deal (sourceAfter source deals)).1

end Deck

end FourCards
