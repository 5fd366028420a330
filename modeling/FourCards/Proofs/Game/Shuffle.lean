/-
This file proves that a shuffle is fair. It is settled by the places that are picked in it, different
choices of them lead to different orders, and every order comes from some choices, so that all things
are equally likely to be at the front.
-/

import FourCards.Deck
import Mathlib.Data.Fintype.Pi
import Mathlib.Data.List.Permutation
import Mathlib.Tactic

namespace FourCards

/-- The places that are picked in a shuffle of one thing more: for each place from the last one down
to the second, a place up to it. The choice for the place `place + 1` is the one at `place`. -/
abbrev Choices (last : Nat) : Type :=
  (place : Fin last) → Fin (place + 2)

namespace Choices

variable {last : Nat}

/-- The place of what the last thing is swapped with. -/
def top (choices : Choices (last + 1)) : Fin (last + 2) :=
  choices (Fin.last last)

/-- The choices for the things before the last one. -/
def others (choices : Choices (last + 1)) : Choices last :=
  fun place => choices place.castSucc

def extend (top : Fin (last + 2)) (others : Choices last) : Choices (last + 1) :=
  Fin.snocEquiv (fun place : Fin (last + 1) => Fin (place + 2)) (top, others)

theorem top_extend (top : Fin (last + 2)) (others : Choices last) : (extend top others).top = top := by
  simp [extend, Choices.top]

theorem others_extend (top : Fin (last + 2)) (others : Choices last) :
    (extend top others).others = others := by
  funext place
  simp [extend, Choices.others]

/-- Choices are the same if they are for the last place and for the others. -/
theorem eq_of_top_others {choices other : Choices (last + 1)} (sameTop : choices.top = other.top)
    (sameOthers : choices.others = other.others) : choices = other := by
  funext place
  cases place using Fin.lastCases with
  | last => exact sameTop
  | cast place => exact congrFun sameOthers place

/-- The choices as what is picked; there is nothing to pick for the first place. -/
def pick (choices : Choices last) : (place : Nat) → Id (Fin (place + 1))
  | 0 => pure 0
  | place + 1 => pure (if within : place < last then choices ⟨place, within⟩ else 0)

/-- The choices for a shuffle are picked from the last place down to the second. -/
def draw {m : Type → Type} [Monad m] (pick : (last : Nat) → m (Fin (last + 1))) :
    (last : Nat) → m (Choices last)
  | 0 => pure fun place => place.elim0
  | last + 1 => do
      let top ← pick (last + 1)
      let others ← draw pick last
      pure (extend top others)

/-- Choices that can be picked in one way can be picked in another in which no place is lost. -/
theorem draw_mono {σ : Type} {pick other : (last : Nat) → StateT σ Option (Fin (last + 1))}
    (more : ∀ last source picked, pick last source = some picked → other last source = some picked)
    {source : σ} {drawn : Choices last × σ} (found : draw pick last source = some drawn) :
    draw other last source = some drawn := by
  induction last generalizing source with
  | zero => exact found
  | succ last inductionHypothesis =>
      obtain ⟨top, picked, found⟩ := Option.bind_eq_some_iff.mp found
      obtain ⟨others, drawnOthers, found⟩ := Option.bind_eq_some_iff.mp found
      refine Option.bind_eq_some_iff.mpr ⟨top, more _ _ _ picked, ?_⟩
      exact Option.bind_eq_some_iff.mpr ⟨others, inductionHypothesis drawnOthers, found⟩

/-- The swap that is made at one place. -/
def swapAt {α : Type} (choices : Choices last) (place : Fin last) (row : Vector α (last + 1)) :
    Vector α (last + 1) :=
  row.swap (place + 1) (choices place) (by omega) (by omega)

end Choices

/-- A row after it was shuffled with these choices. -/
def shuffleBy {α : Type} {last : Nat} (choices : Choices last) (row : Vector α (last + 1)) :
    Vector α (last + 1) :=
  (shuffle choices.pick row).run

section Shuffle

variable {α : Type} {last : Nat}

/-- The row with its last thing swapped with the one at a place. -/
def swapLast (row : Vector α (last + 1)) (place : Fin (last + 1)) : Vector α (last + 1) :=
  row.swap last place

/-- A swap changes only the order. -/
theorem swapLast_perm (row : Vector α (last + 1)) (place : Fin (last + 1)) :
    (swapLast row place).toList.Perm row.toList :=
  (Vector.swap_perm _ _).toList

/-- The picked thing comes last. -/
theorem back_swapLast (row : Vector α (last + 1)) (place : Fin (last + 1)) :
    (swapLast row place).back = row[place] := by
  rw [Vector.back_eq_getElem]
  exact Vector.getElem_swap_left _ _

/-- The last thing of a row comes after the others. -/
theorem toList_eq_pop_append_back (row : Vector α (last + 1)) :
    row.toList = row.pop.toList ++ [row.back] := by
  rw [← Vector.toList_push, row.push_pop_back]

/-- What is picked for places beyond the row makes no difference. -/
theorem shuffle_congr {m : Type → Type} [Monad m] {pick other : (last : Nat) → m (Fin (last + 1))}
    {size : Nat} (same : ∀ place < size, pick place = other place) (row : Vector α size) :
    shuffle pick row = shuffle other row := by
  induction size with
  | zero => rfl
  | succ last shuffled =>
      cases last with
      | zero => rfl
      | succ last =>
          simp only [shuffle, same (last + 1) (by omega)]
          congr 1
          funext place
          rw [shuffled fun place below => same place (by omega)]

/-- The last thing is swapped, and the others are shuffled without what takes its place. -/
theorem shuffleBy_succ (choices : Choices (last + 1)) (row : Vector α (last + 2)) :
    shuffleBy choices row =
      (shuffleBy choices.others (swapLast row choices.top).pop).push (swapLast row choices.top).back := by
  have picked : choices.pick (last + 1) = pure choices.top := by
    simp only [Choices.pick, Nat.lt_add_one, ↓reduceDIte]
    rfl
  have same : ∀ place < last + 1, choices.pick place = choices.others.pick place := by
    intro place below
    cases place with
    | zero => rfl
    | succ place =>
        have within : place < last := by omega
        simp only [Choices.pick, within, Nat.lt_succ_of_lt within, ↓reduceDIte]
        rfl
  simp only [shuffleBy, shuffle, picked, shuffle_congr same]
  rfl

/-- A shuffled row has the things of the row, each as often. -/
theorem shuffleBy_perm (choices : Choices last) (row : Vector α (last + 1)) :
    (shuffleBy choices row).toList.Perm row.toList := by
  induction last with
  | zero => exact .refl _
  | succ last shuffled =>
      let swapped := swapLast row choices.top
      calc (shuffleBy choices row).toList
          = (shuffleBy choices.others swapped.pop).toList ++ [swapped.back] := by
            rw [shuffleBy_succ, Vector.toList_push]
        List.Perm _ (swapped.pop.toList ++ [swapped.back]) := (shuffled _ _).append_right _
        _ = swapped.toList := (toList_eq_pop_append_back swapped).symm
        List.Perm _ row.toList := swapLast_perm row choices.top

/-- To shuffle is to pick choices and to shuffle by them. -/
theorem shuffle_eq_shuffleBy {m : Type → Type} [Monad m] [LawfulMonad m]
    (pick : (last : Nat) → m (Fin (last + 1))) (row : Vector α (last + 1)) :
    shuffle pick row = (fun choices => shuffleBy choices row) <$> Choices.draw pick last := by
  induction last with
  | zero =>
      rw [Choices.draw, map_pure]
      rfl
  | succ last shuffled =>
      simp only [shuffle, Choices.draw, map_bind, map_pure, shuffled, bind_map_left, shuffleBy_succ,
        Choices.top_extend, Choices.others_extend]
      rfl

/-- Things are swapped alike whether or not another follows them. -/
theorem push_swap {size first second : Nat} (row : Vector α size) (thing : α) (firstInside : first < size)
    (secondInside : second < size) :
    (row.push thing).swap first second = (row.swap first second).push thing := by
  ext place inside
  simp only [Vector.getElem_swap, Vector.getElem_push]
  grind

/-- A shuffle swaps in place, from the last place down to the second one. -/
theorem shuffleBy_eq_swaps (choices : Choices last) (row : Vector α (last + 1)) :
    shuffleBy choices row = (List.finRange last).foldr choices.swapAt row := by
  induction last with
  | zero => rfl
  | succ last swapped =>
      let first := swapLast row choices.top
      have before (place : Fin last) (row : Vector α (last + 1)) :
          choices.swapAt place.castSucc (row.push first.back) =
            (choices.others.swapAt place row).push first.back := push_swap _ _ _ _
      calc shuffleBy choices row
          = ((List.finRange last).foldr choices.others.swapAt first.pop).push first.back := by
            rw [shuffleBy_succ, swapped]
        _ = (List.finRange last).foldr (fun place => choices.swapAt place.castSucc)
              (first.pop.push first.back) :=
            (List.foldr_hom (Vector.push · first.back) before).symm
        _ = (List.finRange last).foldr (fun place => choices.swapAt place.castSucc)
              (choices.swapAt (Fin.last last) row) := by
            rw [first.push_pop_back]
            rfl
        _ = (List.finRange (last + 1)).foldr choices.swapAt row := by
            rw [List.finRange_succ_last, List.foldr_append, List.foldr_map]
            rfl

/-- Different choices lead to different orders of things that are different. -/
theorem shuffleBy_injective {row : Vector α (last + 1)} (distinct : row.toList.Nodup) :
    Function.Injective fun choices : Choices last => shuffleBy choices row := by
  induction last with
  | zero => exact Function.injective_of_subsingleton _
  | succ last injective =>
      intro choices other same
      simp only [shuffleBy_succ, Vector.push_eq_push] at same
      obtain ⟨sameLast, sameOthers⟩ := same
      have sameTop : choices.top = other.top := by
        rw [back_swapLast, back_swapLast] at sameLast
        exact Fin.ext (distinct.getElem_inj_iff.mp sameLast)
      refine Choices.eq_of_top_others sameTop (injective ?_ (sameTop ▸ sameOthers))
      have swapped := (swapLast_perm row other.top).nodup_iff.mpr distinct
      rw [toList_eq_pop_append_back] at swapped
      exact swapped.of_append_left

/-- Every order comes from some choices. -/
theorem exists_shuffleBy {row target : Vector α (last + 1)} (same : target.toList.Perm row.toList) :
    ∃ choices, shuffleBy choices row = target := by
  induction last with
  | zero =>
      refine ⟨fun place => place.elim0, Vector.toList_inj.mp ?_⟩
      have single : row.toList.length = 1 := Vector.length_toList
      obtain ⟨thing, only⟩ := List.length_eq_one_iff.mp single
      rw [only] at same
      exact only.trans (List.perm_singleton.mp same).symm
  | succ last exists_others =>
      have inside : target.back ∈ row.toList :=
        same.subset (by rw [toList_eq_pop_append_back]; simp)
      obtain ⟨place, below, found⟩ := List.getElem_of_mem inside
      let top : Fin (last + 2) := ⟨place, below.trans_eq Vector.length_toList⟩
      have lastFound : (swapLast row top).back = target.back := (back_swapLast row top).trans found
      have sameOthers : target.pop.toList.Perm (swapLast row top).pop.toList := by
        have swapped := same.trans (swapLast_perm row top).symm
        rw [toList_eq_pop_append_back target, toList_eq_pop_append_back (swapLast row top),
          lastFound] at swapped
        exact (List.perm_append_right_iff _).mp swapped
      obtain ⟨others, shuffled⟩ := exists_others sameOthers
      refine ⟨.extend top others, ?_⟩
      rw [shuffleBy_succ, Choices.top_extend, Choices.others_extend, shuffled, lastFound,
        target.push_pop_back]

/-- The front of a shuffled row and what comes after it. -/
theorem eq_append_drop {choices : Choices last} {row : Vector α (last + 1)} {front : List α}
    (begins : (shuffleBy choices row).toList.take front.length = front) :
    (shuffleBy choices row).toList = front ++ (shuffleBy choices row).toList.drop front.length := by
  conv_lhs => rw [← List.take_append_drop front.length (shuffleBy choices row).toList, begins]

/-- The choices that lead to a front lead to each order of the things that are left once. -/
theorem card_choices_of_front [DecidableEq α] {row : Vector α (last + 1)} (distinct : row.toList.Nodup)
    {front rest : List α} (whole : (front ++ rest).Perm row.toList) :
    Fintype.card {choices : Choices last // (shuffleBy choices row).toList.take front.length = front} =
      Nat.factorial rest.length := by
  let after (choices : Choices last) := (shuffleBy choices row).toList.drop front.length
  have restDistinct : rest.Nodup := (whole.nodup_iff.mpr distinct).of_append_right
  have matched : (Finset.univ.filter fun choices : Choices last =>
      (shuffleBy choices row).toList.take front.length = front).card =
        rest.permutations.toFinset.card := by
    refine Finset.card_bij (fun choices _ => after choices) ?maps ?injective ?surjective
    case maps =>
      intro choices begins
      have parts := eq_append_drop (Finset.mem_filter.mp begins).2
      have same := (shuffleBy_perm choices row).trans whole.symm
      rw [parts, List.perm_append_left_iff] at same
      exact List.mem_toFinset.mpr (List.mem_permutations.mpr same)
    case injective =>
      intro choices begins other otherBegins sameAfter
      have parts := eq_append_drop (Finset.mem_filter.mp begins).2
      have otherParts := eq_append_drop (Finset.mem_filter.mp otherBegins).2
      refine shuffleBy_injective distinct (Vector.toList_inj.mp ?_)
      rw [parts, otherParts]
      exact congrArg (front ++ ·) sameAfter
    case surjective =>
      intro order permuted
      have same : (front ++ order).Perm row.toList :=
        ((List.mem_permutations.mp (List.mem_toFinset.mp permuted)).append_left front).trans whole
      let target : Vector α (last + 1) := ⟨(front ++ order).toArray, by simpa using same.length_eq⟩
      obtain ⟨choices, shuffled⟩ : ∃ choices, shuffleBy choices row = target := exists_shuffleBy same
      have written : (shuffleBy choices row).toList = front ++ order := by rw [shuffled]; rfl
      refine ⟨choices, Finset.mem_filter.mpr ⟨Finset.mem_univ choices, ?_⟩, ?_⟩
      · rw [written, List.take_left]
      · simp only [after, written, List.drop_left]
  calc Fintype.card {choices : Choices last // _}
      = (Finset.univ.filter fun choices : Choices last =>
          (shuffleBy choices row).toList.take front.length = front).card := Fintype.card_subtype _
    _ = rest.permutations.toFinset.card := matched
    _ = rest.permutations.length := List.toFinset_card_of_nodup (List.nodup_permutations rest restDistinct)
    _ = Nat.factorial rest.length := List.length_permutations rest

end Shuffle

end FourCards
