/-
This file says which numerals are spelled by digits and that they are read as they are written.
-/

import FourCards.Expression.Parser
import FourCards.Proofs.Text.Runs

namespace FourCards

/-- The digits before the point are not missing, and only digits are written beside it. -/
structure Numeral.Spelled (numeral : Numeral) : Prop where
  wholeNonempty : numeral.whole ≠ []
  wholeDigits : ∀ character ∈ numeral.whole, character.isDigit = true
  decimalDigits : ∀ character ∈ numeral.decimals, character.isDigit = true

/-- The text of a numeral begins with a digit. -/
theorem Numeral.Spelled.write_head {numeral : Numeral} (spelled : numeral.Spelled) :
    ∃ character tail, numeral.write = character :: tail ∧ character.isDigit = true := by
  obtain ⟨character, tail, whole⟩ := List.exists_cons_of_ne_nil spelled.wholeNonempty
  have digit := spelled.wholeDigits character (by simp [whole])
  unfold Numeral.write
  split
  · exact ⟨character, tail, whole, digit⟩
  · exact ⟨character, tail ++ '.' :: numeral.decimals, by simp [whole], digit⟩

namespace Expression

open Text

/-- A numeral is read as it is written, unless a digit or a point follows it. -/
theorem readNumeral_write {numeral : Numeral} (spelled : numeral.Spelled) {unread : List Char}
    (ends : EndsRun unread) (noPoint : ∀ character ∈ unread.head?, character ≠ '.') :
    readNumeral (numeral.write ++ unread) = .ok (literal numeral, unread) := by
  obtain ⟨whole, decimals⟩ := numeral
  obtain ⟨wholeNonempty, wholeDigits, decimalDigits⟩ := spelled
  simp only at wholeNonempty wholeDigits decimalDigits
  by_cases noDecimals : decimals = []
  · subst noDecimals
    simp only [Numeral.write, if_true, readNumeral, takeWhile_run wholeDigits ends,
      dropWhile_run wholeDigits ends, if_neg wholeNonempty]
    split
    · exact absurd rfl (noPoint '.' rfl)
    · rfl
  · have pointEnds : EndsRun ('.' :: (decimals ++ unread)) := by
      intro character first
      obtain rfl : '.' = character := by simpa using first
      decide
    simp only [Numeral.write, if_neg noDecimals, readNumeral, List.append_assoc,
      List.cons_append, takeWhile_run wholeDigits pointEnds, dropWhile_run wholeDigits pointEnds,
      if_neg wholeNonempty, takeWhile_run decimalDigits ends, dropWhile_run decimalDigits ends]

/-- What is read as a numeral is one that is spelled by digits, with the unread text after it. -/
theorem readNumeral_sound {text unread : List Char} {tree : Expression}
    (reading : readNumeral text = .ok (tree, unread)) :
    ∃ numeral : Numeral, numeral.Spelled ∧ tree = literal numeral ∧
      numeral.write ++ unread = text := by
  have joined := List.takeWhile_append_dropWhile (p := Char.isDigit) (l := text)
  simp only [readNumeral] at reading
  split at reading
  · cases reading
  · rename_i wholeNonempty
    split at reading
    · rename_i tail point
      have tailJoined := List.takeWhile_append_dropWhile (p := Char.isDigit) (l := tail)
      split at reading
      · cases reading
      · rename_i decimalsNonempty
        cases reading
        refine ⟨_, ⟨wholeNonempty, takeWhile_isDigit text, takeWhile_isDigit tail⟩, rfl, ?_⟩
        simp only [Numeral.write, if_neg decimalsNonempty, List.append_assoc, List.cons_append]
        rw [tailJoined, ← point, joined]
    · cases reading
      refine ⟨_, ⟨wholeNonempty, takeWhile_isDigit text, by simp⟩, rfl, ?_⟩
      simp only [Numeral.write, if_true]
      exact joined

/-- Two numerals that begin one text are the same if neither can go on. -/
theorem numeral_unique {numeral other : Numeral} (spelled : numeral.Spelled)
    (otherSpelled : other.Spelled) {unread otherUnread : List Char}
    (ends : EndsRun unread) (noPoint : ∀ character ∈ unread.head?, character ≠ '.')
    (otherEnds : EndsRun otherUnread)
    (otherNoPoint : ∀ character ∈ otherUnread.head?, character ≠ '.')
    (same : numeral.write ++ unread = other.write ++ otherUnread) :
    numeral = other ∧ unread = otherUnread := by
  have reading := readNumeral_write spelled ends noPoint
  rw [same, readNumeral_write otherSpelled otherEnds otherNoPoint] at reading
  cases reading
  exact ⟨rfl, rfl⟩

end Expression

end FourCards
