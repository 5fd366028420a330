/-
This file proves that the first word of a source that is accepted settles what is drawn from it, and
that nothing is drawn only if no word ever is. Every number is drawn for equally many words.
-/

import FourCards.Binary64.Basic
import FourCards.Random.Source
import Mathlib.Order.Interval.Finset.Nat
import Mathlib.Tactic

namespace FourCards

namespace Draw

variable {σ : Type} [WordSource σ] {last : Nat} {source : σ}

/-- What is left of a source after so many words. -/
def skip (source : σ) : Nat → σ
  | 0 => source
  | count + 1 => skip (WordSource.next source).2 count

/-- The word that comes after so many others. -/
def word (source : σ) (count : Nat) : UInt32 :=
  (WordSource.next (skip source count)).1

/-- The first word that is accepted comes after so many others. -/
structure AcceptsAfter (last : Nat) (source : σ) (count : Nat) : Prop where
  refused : ∀ earlier < count, accepts (last + 1) (word source earlier) = false
  accepted : accepts (last + 1) (word source count) = true

/-- An accepted word is not looked past. -/
theorem upTo_of_accepted (accepted : accepts (last + 1) (WordSource.next source).1 = true) :
    upTo last source =
      some (outcome last (WordSource.next source).1, (WordSource.next source).2) := by
  rw [upTo, if_pos accepted]

/-- A refused word plays no part. -/
theorem upTo_of_refused (refused : accepts (last + 1) (WordSource.next source).1 = false) :
    upTo last source = upTo last (WordSource.next source).2 := by
  rw [upTo, if_neg (by simp [refused])]

/-- The words that are refused are passed one by one. -/
theorem upTo_of_acceptsAfter {count : Nat} (first : AcceptsAfter last source count) :
    upTo last source = some (outcome last (word source count), skip source (count + 1)) := by
  induction count generalizing source with
  | zero => exact upTo_of_accepted first.accepted
  | succ count inductionHypothesis =>
      have refused : accepts (last + 1) (WordSource.next source).1 = false :=
        first.refused 0 (Nat.succ_pos count)
      rw [upTo_of_refused refused]
      refine inductionHypothesis ⟨fun earlier below => ?_, first.accepted⟩
      exact first.refused (earlier + 1) (Nat.succ_lt_succ below)

/-- What is drawn comes from the first word that is accepted, and the source goes on after it. -/
theorem upTo_eq_some_iff {result : Fin (last + 1) × σ} :
    upTo last source = some result ↔ ∃ count, AcceptsAfter last source count ∧
      result = (outcome last (word source count), skip source (count + 1)) := by
  constructor
  · apply upTo.partial_correctness last
    intro search found source result drawn
    cases accepted : accepts (last + 1) (WordSource.next source).1 with
    | true =>
        rw [if_pos accepted] at drawn
        exact ⟨0, ⟨fun earlier below => absurd below (Nat.not_lt_zero earlier), accepted⟩,
          (Option.some.inj drawn).symm⟩
    | false =>
        rw [if_neg (by simp [accepted])] at drawn
        obtain ⟨count, later, rfl⟩ := found _ _ drawn
        refine ⟨count + 1, ⟨fun earlier below => ?_, later.accepted⟩, rfl⟩
        cases earlier with
        | zero => exact accepted
        | succ earlier => exact later.refused earlier (Nat.lt_of_succ_lt_succ below)
  · rintro ⟨count, first, rfl⟩
    exact upTo_of_acceptsAfter first

/-- Nothing is drawn if every word is refused, and only then. -/
theorem upTo_eq_none_iff :
    upTo last source = none ↔ ∀ count, accepts (last + 1) (word source count) = false := by
  constructor
  · intro nothing count
    by_contra accepted
    -- The first of the accepted words would be drawn from.
    have some : ∃ count, accepts (last + 1) (word source count) = true :=
      ⟨count, Bool.not_eq_false _ ▸ accepted⟩
    have first : AcceptsAfter last source (Nat.find some) :=
      ⟨fun earlier below => Bool.not_eq_true _ ▸ Nat.find_min some below, Nat.find_spec some⟩
    rw [upTo_of_acceptsAfter first] at nothing
    contradiction
  · intro refused
    cases drawn : upTo last source with
    | none => rfl
    | some result =>
        obtain ⟨count, first, -⟩ := upTo_eq_some_iff.mp drawn
        exact absurd ((refused count).symm.trans first.accepted) Bool.false_ne_true

/-- The zone is a whole number of bounds that fits in a word. -/
theorem exists_zone {bound : Nat} (positive : 0 < bound) (inRange : bound < UInt32.size) :
    ∃ width, zone bound + 1 = bound * width ∧ bound * width ≤ UInt32.size := by
  have logBelow : bound.log2 ≤ 31 := by
    have := (Nat.log2_lt (Nat.ne_of_gt positive)).mpr (show bound < 2 ^ 32 from inRange)
    omega
  have width := Nat.two_pow_pos (31 - bound.log2)
  refine ⟨2 ^ (31 - bound.log2), ?_, ?_⟩
  · rw [zone, Nat.shiftLeft_eq]
    exact Nat.sub_add_cancel (Nat.mul_pos positive width)
  · calc bound * 2 ^ (31 - bound.log2)
        ≤ 2 ^ (bound.log2 + 1) * 2 ^ (31 - bound.log2) :=
          Nat.mul_le_mul_right _ (Nat.le_of_lt Nat.lt_log2_self)
      _ = UInt32.size := by
          rw [← Nat.pow_add, show bound.log2 + 1 + (31 - bound.log2) = 32 by omega]

/-- The accepted words from which a number is drawn follow one another. -/
theorem accepts_and_outcome_iff {word : UInt32} {place : Fin (last + 1)} {width : Nat}
    (whole : zone (last + 1) + 1 = (last + 1) * width)
    (fits : (last + 1) * width ≤ UInt32.size) :
    accepts (last + 1) word = true ∧ outcome last word = place ↔
      place * UInt32.size ≤ word.toNat * (last + 1) ∧
        word.toNat * (last + 1) < place * UInt32.size + (last + 1) * width := by
  have parts := Nat.div_add_mod (word.toNat * (last + 1)) UInt32.size
  have below := Nat.mod_lt (word.toNat * (last + 1)) (show 0 < UInt32.size by decide)
  rw [accepts, decide_eq_true_eq, outcome, Fin.ext_iff]
  constructor
  · rintro ⟨accepted, here⟩
    simp only at here
    rw [here] at parts
    rw [Nat.mul_comm] at parts
    omega
  · rintro ⟨lower, upper⟩
    have here : word.toNat * (last + 1) / UInt32.size = place := by
      apply Nat.div_eq_of_lt_le lower
      rw [Nat.succ_mul]
      omega
    refine ⟨?_, here⟩
    rw [here, Nat.mul_comm] at parts
    omega

/-- The whole numbers whose multiples lie in a range of so many multiples follow one another. -/
theorem exists_first_multiple {bound : Nat} (positive : 0 < bound) (lower width : Nat) :
    ∃ first, ∀ number, lower ≤ number * bound ∧ number * bound < lower + bound * width ↔
      number ∈ Finset.Ico first (first + width) := by
  obtain ⟨first, above, near⟩ : ∃ first, lower ≤ first * bound ∧ first * bound < lower + bound := by
    refine ⟨(lower + bound - 1) / bound, ?_⟩
    have parts := Nat.div_add_mod (lower + bound - 1) bound
    have below := Nat.mod_lt (lower + bound - 1) positive
    rw [Nat.mul_comm] at parts
    omega
  refine ⟨first, fun number => ?_⟩
  rw [Finset.mem_Ico]
  constructor
  · rintro ⟨lowest, highest⟩
    constructor
    · by_contra before
      have := Nat.mul_le_mul_right bound (Nat.lt_of_not_le before)
      rw [Nat.succ_mul] at this
      omega
    · by_contra beyond
      have := Nat.mul_le_mul_right bound (Nat.le_of_not_lt beyond)
      rw [Nat.add_mul, Nat.mul_comm width] at this
      omega
  · rintro ⟨lowest, highest⟩
    constructor
    · exact above.trans (Nat.mul_le_mul_right bound lowest)
    · have := Nat.mul_le_mul_right bound highest
      rw [Nat.succ_mul, Nat.add_mul, Nat.mul_comm width] at this
      omega

/-- Every number up to the last is drawn for equally many words. -/
theorem card_accepted (inRange : last + 1 < UInt32.size) (place : Fin (last + 1)) :
    (last + 1) *
        Nat.card {word : UInt32 // accepts (last + 1) word = true ∧ outcome last word = place} =
      zone (last + 1) + 1 := by
  obtain ⟨width, whole, fits⟩ := exists_zone (Nat.succ_pos last) inRange
  obtain ⟨first, between⟩ := exists_first_multiple (Nat.succ_pos last) (place * UInt32.size) width
  have same (word : UInt32) : accepts (last + 1) word = true ∧ outcome last word = place ↔
      word.toNat ∈ Finset.Ico first (first + width) := by
    rw [accepts_and_outcome_iff whole fits, ← between]
  -- What lies beyond the words has no product whose upper half is this low.
  have isWord {number : Nat} (inside : number ∈ Finset.Ico first (first + width)) :
      number < UInt32.size := by
    have low : number * (last + 1) < place * UInt32.size + (last + 1) * width :=
      ((between number).mpr inside).2
    have placeBelow : place * UInt32.size + UInt32.size ≤ (last + 1) * UInt32.size := by
      rw [← Nat.succ_mul]
      exact Nat.mul_le_mul_right UInt32.size place.isLt
    have fits : (last + 1) * width ≤ UInt32.size := fits
    exact Nat.lt_of_mul_lt_mul_left (a := last + 1) (by rw [Nat.mul_comm]; omega)
  rw [whole, Nat.card_congr (Equiv.subtypeEquivRight same)]
  congr 1
  calc Nat.card {word : UInt32 // word.toNat ∈ Finset.Ico first (first + width)}
      = Nat.card (Finset.Ico first (first + width)) := Nat.card_congr {
          toFun := fun word => ⟨word.1.toNat, word.2⟩
          invFun := fun number => ⟨UInt32.ofNatLT number.1 (isWord number.2), by simp⟩
          left_inv := fun word => by simp
          right_inv := fun number => by simp }
    _ = width := by
      rw [Nat.card_eq_fintype_card, Fintype.card_coe, Nat.card_Ico, Nat.add_sub_cancel_left]

/-- What is drawn if one of so many words is accepted. -/
def upToWithin (last : Nat) : Nat → σ → Option (Fin (last + 1) × σ)
  | 0, _ => none
  | words + 1, source =>
      let drawn := WordSource.next source
      if accepts (last + 1) drawn.1 then some (outcome last drawn.1, drawn.2)
      else upToWithin last words drawn.2

/-- What is drawn within so many words is drawn. -/
theorem upTo_of_upToWithin {words : Nat} {result : Fin (last + 1) × σ}
    (drawn : upToWithin last words source = some result) : upTo last source = some result := by
  induction words generalizing source with
  | zero => contradiction
  | succ words inductionHypothesis =>
      rw [upToWithin] at drawn
      rw [upTo]
      split at drawn
      · rename_i accepted
        rw [if_pos accepted]
        exact drawn
      · rename_i refused
        rw [if_neg refused]
        exact inductionHypothesis drawn

end Draw

end FourCards
