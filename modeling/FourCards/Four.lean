/-
This file defines four things in a row and the arrangements in which they can be taken.
-/

namespace FourCards

structure Four (α : Type) where
  first : α
  second : α
  third : α
  fourth : α
deriving DecidableEq

namespace Four

variable {α β : Type}

def toList (four : Four α) : List α :=
  [four.first, four.second, four.third, four.fourth]

def ofList? : List α → Option (Four α)
  | [first, second, third, fourth] => some ⟨first, second, third, fourth⟩
  | _ => none

def map (function : α → β) (four : Four α) : Four β :=
  ⟨function four.first, function four.second, function four.third, function four.fourth⟩

def get (four : Four α) : Fin 4 → α
  | 0 => four.first
  | 1 => four.second
  | 2 => four.third
  | 3 => four.fourth

theorem ofListToList (four : Four α) : ofList? four.toList = some four := rfl

theorem toListMap (function : α → β) (four : Four α) :
    (four.map function).toList = four.toList.map function := rfl

theorem toListLength (four : Four α) : four.toList.length = 4 := rfl

/-- The things of a list take the places one after another; a place that the list does not reach
keeps what it holds. -/
def overwrite (four : Four α) (others : List α) : Four α :=
  ⟨others.getD 0 four.first, others.getD 1 four.second, others.getD 2 four.third,
    others.getD 3 four.fourth⟩

theorem toListOverwrite (four : Four α) {others : List α} (enough : 4 ≤ others.length) :
    (four.overwrite others).toList = others.take 4 := by
  rcases others with _ | ⟨first, _ | ⟨second, _ | ⟨third, _ | ⟨fourth, rest⟩⟩⟩⟩
  case cons.cons.cons.cons => rfl
  all_goals simp at enough

theorem toListInj {four other : Four α} (same : four.toList = other.toList) : four = other := by
  have read := congrArg ofList? same
  rw [ofListToList, ofListToList] at read
  exact Option.some.inj read

def slots : List (Fin 4) := [0, 1, 2, 3]

/-- Every arrangement of the four slots, the first slot varying slowest. -/
def slotArrangements : List (Four (Fin 4)) :=
  slots.flatMap fun first =>
    (slots.filter (· ≠ first)).flatMap fun second =>
      (slots.filter fun slot => slot ≠ first ∧ slot ≠ second).flatMap fun third =>
        (slots.filter fun slot => slot ≠ first ∧ slot ≠ second ∧ slot ≠ third).map fun fourth =>
          ⟨first, second, third, fourth⟩

/-- The slots stay apart even where they hold equal things, so there are always 24 arrangements. -/
def arrangements (four : Four α) : List (Four α) :=
  slotArrangements.map fun order => order.map four.get

theorem arrangementsLength (four : Four α) : four.arrangements.length = 24 := by
  simp only [arrangements, List.length_map]
  decide

end Four

end FourCards
