/-
This file describes the order in which the search tries its candidates: lexicographic in the slots
from which the operands are taken, the operators and the shape.
-/

import FourCards.Solver
import Mathlib.Tactic

namespace FourCards

/-- The place of an operator in the search. -/
def Operator.place : Operator → Nat
  | add => 0
  | sub => 1
  | mul => 2
  | div => 3

/-- The place of a shape in the search. -/
def Shape.place : Shape → Nat
  | pairs => 0
  | chain => 1
  | nested => 2

/-- A candidate before the hand is known: the slots of its operands, its operators and its shape. -/
structure Choice where
  slots : Four (Fin 4)
  first : Operator
  second : Operator
  third : Operator
  shape : Shape

/-- For each of the 24 orders of the values 192 candidates are tried. -/
theorem Solver.length_candidates (hand : Hand) : (candidates hand).length = 4608 := by
  have each (orders : List (Four Nat)) :
      (orders.flatMap Candidate.enumerate).length = orders.length * 192 := by
    induction orders with
    | nil => rfl
    | cons order orders inductionHypothesis =>
        rw [List.flatMap_cons, List.length_append, Candidate.enumerateLength, inductionHypothesis,
          List.length_cons, Nat.succ_mul, Nat.add_comm]
  rw [candidates, each, Four.arrangementsLength]

namespace Choice

def candidate (choice : Choice) (hand : Hand) : Candidate :=
  ⟨choice.slots.map hand.values.get, choice.first, choice.second, choice.third, choice.shape⟩

/-- The choices are compared by these numbers in lexicographic order. -/
def key (choice : Choice) : List Nat :=
  choice.slots.toList.map Fin.val ++
    [choice.first.place, choice.second.place, choice.third.place, choice.shape.place]

def all : List Choice :=
  Four.slotArrangements.flatMap fun slots =>
    Operator.all.flatMap fun first =>
      Operator.all.flatMap fun second =>
        Operator.all.flatMap fun third =>
          Shape.all.map fun shape => ⟨slots, first, second, third, shape⟩

/-- The search tries the choices in turn. -/
theorem candidates_eq_map (hand : Hand) :
    Solver.candidates hand = all.map fun choice => choice.candidate hand := by
  simp only [Solver.candidates, Four.arrangements, Candidate.enumerate, all, List.map_flatMap,
    List.flatMap_map, List.map_map]
  rfl

/-- There are as many choices as candidates for any hand. -/
theorem length_all : all.length = 4608 := by
  have counted := Solver.length_candidates ⟨⟨1, 1, 1, 1⟩, by decide⟩
  rwa [candidates_eq_map, List.length_map] at counted

/-- The slots are arranged in every way in which none is used twice. -/
theorem mem_slotArrangements_iff (slots : Four (Fin 4)) :
    slots ∈ Four.slotArrangements ↔ slots.toList.Nodup := by
  obtain ⟨a, b, c, d⟩ := slots
  decide +revert

/-- Every choice that takes no slot twice is tried. -/
theorem mem_all_iff (choice : Choice) : choice ∈ all ↔ choice.slots.toList.Nodup := by
  obtain ⟨slots, first, second, third, shape⟩ := choice
  simp only [all, List.mem_flatMap, List.mem_map, ← mem_slotArrangements_iff]
  constructor
  · rintro ⟨_, inside, _, _, _, _, _, _, _, _, same⟩
    cases same
    exact inside
  · intro inside
    exact ⟨slots, inside, first, Operator.mem_all first, second, Operator.mem_all second, third,
      Operator.mem_all third, shape, Shape.mem_all shape, rfl⟩

/-- The slots decide first, then the operators in turn, then the shape. -/
theorem key_lt_key_iff (left right : Choice) :
    left.key < right.key ↔
      left.slots.toList.map Fin.val < right.slots.toList.map Fin.val ∨
        left.slots.toList.map Fin.val = right.slots.toList.map Fin.val ∧
          (left.first.place < right.first.place ∨ left.first.place = right.first.place ∧
            (left.second.place < right.second.place ∨ left.second.place = right.second.place ∧
              (left.third.place < right.third.place ∨ left.third.place = right.third.place ∧
                left.shape.place < right.shape.place))) := by
  obtain ⟨⟨a, b, c, d⟩, _, _, _, _⟩ := left
  obtain ⟨⟨a', b', c', d'⟩, _, _, _, _⟩ := right
  simp only [key, Four.toList, List.map_cons, List.map_nil, List.cons_append, List.nil_append,
    List.cons_lt_cons_iff, List.cons.injEq, List.not_lt_nil, and_false, or_false, and_true]
  tauto

/-- A nested enumeration is in the order of the keys if its items are in an order that decides. -/
theorem pairwise_flatMap_key {α : Type} {outer : List α} {inner : α → List Choice}
    {before : α → α → Prop} (sorted : outer.Pairwise before)
    (within : ∀ item ∈ outer, (inner item).Pairwise fun left right => left.key < right.key)
    (across : ∀ item other, before item other →
      ∀ left ∈ inner item, ∀ right ∈ inner other, left.key < right.key) :
    (outer.flatMap inner).Pairwise fun left right => left.key < right.key :=
  List.pairwise_flatMap.mpr ⟨within, sorted.imp (across _ _)⟩

/-- The operators are listed by their places. -/
theorem pairwise_operators : Operator.all.Pairwise fun left right => left.place < right.place := by
  decide

/-- The shapes are listed by their places. -/
theorem pairwise_shapes : Shape.all.Pairwise fun left right => left.place < right.place := by
  decide

/-- The arrangements of the slots are listed in lexicographic order. -/
theorem pairwise_slotArrangements : Four.slotArrangements.Pairwise fun left right =>
    left.toList.map Fin.val < right.toList.map Fin.val := by
  decide

/-- Every choice is tried after those that come before it in lexicographic order. -/
theorem pairwise_all : all.Pairwise fun left right => left.key < right.key := by
  refine pairwise_flatMap_key pairwise_slotArrangements (fun slots _ => ?_) ?_
  · refine pairwise_flatMap_key pairwise_operators (fun first _ => ?_) ?_
    · refine pairwise_flatMap_key pairwise_operators (fun second _ => ?_) ?_
      · refine pairwise_flatMap_key pairwise_operators (fun third _ => ?_) ?_
        · rw [List.pairwise_map]
          refine pairwise_shapes.imp fun before => ?_
          simp [key_lt_key_iff, before]
        · intro third other before left leftInside right rightInside
          obtain ⟨_, -, rfl⟩ := List.mem_map.mp leftInside
          obtain ⟨_, -, rfl⟩ := List.mem_map.mp rightInside
          simp [key_lt_key_iff, before]
      · intro second other before left leftInside right rightInside
        simp only [List.mem_flatMap, List.mem_map] at leftInside rightInside
        obtain ⟨_, -, _, -, rfl⟩ := leftInside
        obtain ⟨_, -, _, -, rfl⟩ := rightInside
        simp [key_lt_key_iff, before]
    · intro first other before left leftInside right rightInside
      simp only [List.mem_flatMap, List.mem_map] at leftInside rightInside
      obtain ⟨_, -, _, -, _, -, rfl⟩ := leftInside
      obtain ⟨_, -, _, -, _, -, rfl⟩ := rightInside
      simp [key_lt_key_iff, before]
  · intro slots other before left leftInside right rightInside
    simp only [List.mem_flatMap, List.mem_map] at leftInside rightInside
    obtain ⟨_, -, _, -, _, -, _, -, rfl⟩ := leftInside
    obtain ⟨_, -, _, -, _, -, _, -, rfl⟩ := rightInside
    exact (key_lt_key_iff _ _).mpr (.inl before)

end Choice

end FourCards
