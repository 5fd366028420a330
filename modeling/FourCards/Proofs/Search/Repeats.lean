/-
This file counts how often the search tries a text: as often as the equal values of the hand can
change places. The solutions are thus the texts that make the target with exactly these repeats
removed.
-/

import FourCards.Proofs.Game.Order
import FourCards.Proofs.Search.Enumeration
import Mathlib.GroupTheory.Perm.DomMulAct

namespace FourCards

/-- A function takes a value as often as there are places where it takes it. -/
theorem count_map_univ {ι α : Type} [Fintype ι] [DecidableEq α] (function : ι → α) (value : α) :
    (Finset.univ.val.map function).count value =
      Fintype.card {index // function index = value} := by
  rw [Multiset.count_map, Fintype.card_subtype, Finset.card_def, Finset.filter_val]
  simp only [eq_comm]

namespace Four

open Equiv

variable {α : Type}

/-- Four things are told by their slots. -/
theorem get_injective : Function.Injective (get : Four α → Fin 4 → α) := by
  intro four other same
  cases four
  cases other
  rw [Four.mk.injEq]
  exact ⟨congrFun same 0, congrFun same 1, congrFun same 2, congrFun same 3⟩

/-- Four things that are taken from slots are those in the slots. -/
theorem get_map (four : Four α) (order : Four (Fin 4)) :
    (order.map four.get).get = four.get ∘ order.get := by
  funext slot
  fin_cases slot <;> rfl

/-- The slots are arranged by every permutation once. -/
theorem slotArrangements_eq_univ : (slotArrangements.map get : Multiset (Fin 4 → Fin 4)) =
    Finset.univ.val.map fun order : Perm (Fin 4) => (order : Fin 4 → Fin 4) := by
  decide

/-- Four things are arranged by every permutation of their slots once. -/
theorem arrangements_eq_univ (four : Four α) :
    (four.arrangements.map get : Multiset (Fin 4 → α)) =
      Finset.univ.val.map fun order : Perm (Fin 4) => four.get ∘ order := by
  have relabelled : get ∘ (fun order : Four (Fin 4) => order.map four.get) =
      (fun slots : Fin 4 → Fin 4 => four.get ∘ slots) ∘ get := by
    funext order
    exact four.get_map order
  rw [arrangements, List.map_map, relabelled, ← List.map_map, ← Multiset.map_coe,
    slotArrangements_eq_univ, Multiset.map_map]
  rfl

theorem toList_eq_univ (four : Four α) :
    (four.toList : Multiset α) = Finset.univ.val.map four.get := rfl

/-- The permutations that lead to one arrangement are as many as those that change nothing, and these
permute the places of each value among themselves. -/
theorem count_arrangements [DecidableEq α] {four other : Four α}
    (arranged : other ∈ four.arrangements) :
    four.arrangements.count other =
      ∏ value ∈ four.toList.toFinset, (four.toList.count value).factorial := by
  have taken := Multiset.mem_coe.mpr (List.mem_map_of_mem (f := get) arranged)
  rw [arrangements_eq_univ, Multiset.mem_map] at taken
  obtain ⟨order, -, same⟩ := taken
  calc four.arrangements.count other
      = (four.arrangements.map get : Multiset (Fin 4 → α)).count other.get := by
        rw [Multiset.coe_count, List.count_map_of_injective _ _ get_injective]
    _ = Fintype.card {another : Perm (Fin 4) // four.get ∘ another = four.get ∘ order} := by
        rw [arrangements_eq_univ, count_map_univ, same]
    _ = Fintype.card {another : Perm (Fin 4) // four.get ∘ another = four.get} := by
        apply Fintype.card_congr
        apply (Equiv.mulRight order⁻¹).subtypeEquiv
        intro another
        exact (Equiv.comp_symm_eq order four.get (four.get ∘ another)).symm
    _ = ∏ value ∈ Finset.univ.image four.get,
          (Fintype.card {slot // four.get slot = value}).factorial :=
        DomMulAct.stabilizer_card' four.get
    _ = ∏ value ∈ four.toList.toFinset, (four.toList.count value).factorial := by
        simp only [← count_map_univ, Finset.image, ← toList_eq_univ, Multiset.coe_count]
        rfl

end Four

/-- A nested enumeration repeats nothing if an entry tells the item under which it stands. -/
theorem nodup_flatMap_of_tagged {α β : Type} {outer : List α} {inner : α → List β} (tag : β → α)
    (distinct : outer.Nodup) (within : ∀ item, (inner item).Nodup)
    (tagged : ∀ item, ∀ entry ∈ inner item, tag entry = item) : (outer.flatMap inner).Nodup := by
  apply List.nodup_flatMap.mpr
  constructor
  · intro item _
    exact within item
  · apply List.Pairwise.imp _ distinct
    intro item other apart entry inside otherInside
    exact apart ((tagged item entry inside).symm.trans (tagged other entry otherInside))

namespace Candidate

/-- One order of the operands gives every candidate once. -/
theorem nodup_enumerate (operands : Four Nat) : (enumerate operands).Nodup := by
  apply nodup_flatMap_of_tagged Candidate.first (by decide)
  · intro first
    apply nodup_flatMap_of_tagged Candidate.second (by decide)
    · intro second
      apply nodup_flatMap_of_tagged Candidate.third (by decide)
      · intro third
        apply List.Nodup.map _ (by decide)
        intro shape other same
        exact congrArg Candidate.shape same
      · intro third candidate inside
        obtain ⟨shape, -, rfl⟩ := List.mem_map.mp inside
        rfl
    · intro second candidate inside
      simp only [List.mem_flatMap, List.mem_map] at inside
      obtain ⟨third, -, shape, -, rfl⟩ := inside
      rfl
  · intro first candidate inside
    simp only [List.mem_flatMap, List.mem_map] at inside
    obtain ⟨second, -, third, -, shape, -, rfl⟩ := inside
    rfl

/-- A candidate is tried as often as its operands are. -/
theorem count_flatMap_enumerate (candidate : Candidate) (orders : List (Four Nat)) :
    (orders.flatMap enumerate).count candidate = orders.count candidate.operands := by
  induction orders with
  | nil => rfl
  | cons operands others inductionHypothesis =>
      rw [List.flatMap_cons, List.count_append, inductionHypothesis,
        (nodup_enumerate operands).count, List.count_cons, Nat.add_comm]
      simp only [mem_enumerate_iff, beq_iff_eq, @eq_comm _ candidate.operands]

end Candidate

/-- The number of permutations of the slots that leave the values of the hand as they stand. -/
def Hand.repeats (hand : Hand) : Nat :=
  ∏ value ∈ hand.toList.toFinset, (hand.toList.count value).factorial

/-- If every item occurs as often as any other, so does the whole list of them without repeats. -/
theorem length_eq_mul_length_eraseDups {α : Type} [DecidableEq α] {items : List α} {times : Nat}
    (evenly : ∀ item ∈ items, items.count item = times) :
    items.length = times * items.eraseDups.length := by
  have members : items.eraseDups.toFinset = items.toFinset := by
    ext item
    simp only [List.mem_toFinset, List.mem_eraseDups]
  calc items.length
      = ∑ item ∈ items.toFinset, items.count item :=
        (List.sum_toFinset_count_eq_length items).symm
    _ = ∑ _item ∈ items.toFinset, times :=
        Finset.sum_congr rfl fun item inside => evenly item (List.mem_toFinset.mp inside)
    _ = times * items.eraseDups.length := by
        rw [Finset.sum_const, smul_eq_mul, Nat.mul_comm, ← members,
          List.toFinset_card_of_nodup (nodup_eraseDups items)]

namespace Solver

variable {hand : Hand}

/-- A candidate is tried as often as equal values change places. -/
theorem count_candidates {candidate : Candidate} (tried : candidate ∈ candidates hand) :
    (candidates hand).count candidate = hand.repeats := by
  rw [candidates, Candidate.count_flatMap_enumerate,
    Four.count_arrangements (mem_candidates_iff.mp tried)]
  rfl

/-- Only equal candidates have equal texts, so a text repeats as its candidate does. -/
theorem count_texts {text : String} (tried : text ∈ (candidates hand).map Candidate.text) :
    ((candidates hand).map Candidate.text).count text = hand.repeats := by
  obtain ⟨candidate, inside, rfl⟩ := List.mem_map.mp tried
  rw [List.count_map_of_injective _ _ Candidate.text_injective, count_candidates inside]

/-- Each solution is hit in as many ways as its candidate is tried. -/
theorem length_hits (target : Binary64) (hand : Hand) :
    ((candidates hand).filter fun candidate => candidate.directValue.equals target).length =
      hand.repeats * (solutions target hand).length := by
  have evenly : ∀ text ∈ ((candidates hand).map Candidate.text).filter (makes target),
      (((candidates hand).map Candidate.text).filter (makes target)).count text =
        hand.repeats := by
    intro text hit
    obtain ⟨tried, made⟩ := List.mem_filter.mp hit
    rw [List.count_filter made, count_texts tried]
  calc ((candidates hand).filter fun candidate => candidate.directValue.equals target).length
      = (((candidates hand).map Candidate.text).filter (makes target)).length := by
        rw [filter_makes, List.length_map]
    _ = hand.repeats * (solutions target hand).length := length_eq_mul_length_eraseDups evenly

/-- Candidates have the same text only if they are the same. So each of the 4608 texts that are tried
for a hand occurs in as many ways as equal values change places. Of the candidates that come to a target,
by their own value or as their text is evaluated, as many give one solution. -/
theorem texts_repeat_evenly :
    (∀ candidate other : Candidate, candidate.text = other.text ↔ candidate = other) ∧
      ∀ hand : Hand, (candidates hand).length = 4608 ∧
        (∀ text ∈ (candidates hand).map Candidate.text,
          ((candidates hand).map Candidate.text).count text =
            ∏ value ∈ hand.toList.toFinset, (hand.toList.count value).factorial) ∧
        ∀ target,
          (∀ candidate : Candidate,
            makes target candidate.text = candidate.directValue.equals target) ∧
          ((candidates hand).filter fun candidate =>
              candidate.directValue.equals target).length =
            (∏ value ∈ hand.toList.toFinset, (hand.toList.count value).factorial) *
              (solutions target hand).length :=
  ⟨fun _ _ => Candidate.text_injective.eq_iff, fun hand =>
    ⟨length_candidates hand, fun _ tried => count_texts tried, fun target =>
      ⟨fun candidate => makes_text target candidate, length_hits target hand⟩⟩⟩

/-- Two pairs of cards: a text is tried in four ways, and four candidates give each solution for what it
comes to. -/
theorem texts_repeat_evenly_pairs :
    ∃ (hand : Hand) (target : Binary64), hand.values = ⟨3, 8, 3, 8⟩ ∧
      target = (Binary64.ofNat 55).negate ∧
      "(3+8)*(3-8)" ∈ (candidates hand).map Candidate.text ∧
      ((candidates hand).map Candidate.text).count "(3+8)*(3-8)" = 4 ∧
      "(3+8)*(3-8)" ∈ solutions target hand ∧ "(3*3)-(8*8)" ∈ solutions target hand ∧
      ((candidates hand).filter fun candidate => candidate.directValue.equals target).length =
        4 * (solutions target hand).length := by
  have listed {candidate : Candidate} (permuted : candidate.operands.toList.Perm [3, 8, 3, 8]) :
      candidate ∈ candidates ⟨⟨3, 8, 3, 8⟩, by decide⟩ := mem_candidates_iff_perm.mpr permuted
  have tried : "(3+8)*(3-8)" ∈ (candidates ⟨⟨3, 8, 3, 8⟩, by decide⟩).map Candidate.text :=
    List.mem_map.mpr ⟨⟨⟨3, 8, 3, 8⟩, .add, .mul, .sub, .pairs⟩, listed (.refl _), rfl⟩
  have first : "(3+8)*(3-8)" ∈
      solutions (Binary64.ofNat 55).negate ⟨⟨3, 8, 3, 8⟩, by decide⟩ :=
    mem_solutions_iff.mpr ⟨⟨⟨3, 8, 3, 8⟩, .add, .mul, .sub, .pairs⟩, listed (.refl _),
      by decide +kernel, rfl⟩
  have second : "(3*3)-(8*8)" ∈
      solutions (Binary64.ofNat 55).negate ⟨⟨3, 8, 3, 8⟩, by decide⟩ :=
    mem_solutions_iff.mpr ⟨⟨⟨3, 3, 8, 8⟩, .mul, .sub, .mul, .pairs⟩, listed (by decide),
      by decide +kernel, rfl⟩
  obtain ⟨-, counted, hits⟩ := texts_repeat_evenly.2 ⟨⟨3, 8, 3, 8⟩, by decide⟩
  exact ⟨_, _, rfl, rfl, tried, (counted _ tried).trans (by decide), first, second,
    (hits _).2.trans (congrArg (· * _) (by decide))⟩

end Solver

end FourCards
