/-
This file describes the pieces of a text between the characters that part it, such as its runs of
digits: they are the longest nonempty ones without such a character.
-/

import Mathlib.Tactic

namespace FourCards.Text

variable {parts : Char → Bool}

/-- The nonempty pieces of a text between the characters that part it. -/
def piecesBetween (parts : Char → Bool) (text : List Char) : List (List Char) :=
  (text.splitOnP parts).filter fun piece => !piece.isEmpty

theorem piecesBetween_nil : piecesBetween parts [] = [] := rfl

/-- A character that parts the text parts the pieces before it from those after it. -/
theorem piecesBetween_append_cons (left : List Char) {character : Char} (right : List Char)
    (parting : parts character = true) :
    piecesBetween parts (left ++ character :: right) =
      piecesBetween parts left ++ piecesBetween parts right := by
  simp only [piecesBetween]
  rw [List.splitOnP_append_cons left right parting, List.filter_append]

/-- A separator in front makes no piece. -/
theorem piecesBetween_cons {character : Char} (text : List Char)
    (parting : parts character = true) :
    piecesBetween parts (character :: text) = piecesBetween parts text :=
  piecesBetween_append_cons [] text parting

/-- A text without separators is one piece. -/
theorem piecesBetween_singleton {piece : List Char} (nonempty : piece ≠ [])
    (whole : ∀ character ∈ piece, parts character = false) :
    piecesBetween parts piece = [piece] := by
  rw [piecesBetween, List.splitOnP_eq_singleton whole]
  simp [nonempty]

/-- The text does not go on with the piece before it. -/
def EndsPiece (parts : Char → Bool) (unread : List Char) : Prop :=
  ∀ character ∈ unread.head?, parts character = true

/-- Where a piece ends, the text before and the text after are cut on their own. -/
theorem piecesBetween_append (left : List Char) {unread : List Char}
    (ends : EndsPiece parts unread) :
    piecesBetween parts (left ++ unread) =
      piecesBetween parts left ++ piecesBetween parts unread := by
  cases unread with
  | nil => rw [List.append_nil, piecesBetween_nil, List.append_nil]
  | cons character tail =>
      have parting := ends character rfl
      rw [piecesBetween_append_cons left tail parting, piecesBetween_cons tail parting]

/-- The longest nonempty pieces of a text without characters that part it, in their order. -/
inductive Pieces (parts : Char → Bool) : List Char → List (List Char) → Prop where
  | done : Pieces parts [] []
  | skip {character : Char} {text : List Char} {pieces : List (List Char)} :
      parts character = true → Pieces parts text pieces → Pieces parts (character :: text) pieces
  | piece {first text : List Char} {pieces : List (List Char)} :
      first ≠ [] → (∀ character ∈ first, parts character = false) → EndsPiece parts text →
        Pieces parts text pieces → Pieces parts (first ++ text) (first :: pieces)

/-- A text is cut in one way only. -/
theorem Pieces.eq_piecesBetween {text : List Char} {pieces : List (List Char)}
    (cut : Pieces parts text pieces) : piecesBetween parts text = pieces := by
  induction cut with
  | done => rfl
  | skip parting later sameLater => rw [piecesBetween_cons _ parting, sameLater]
  | piece nonempty whole ends later sameLater =>
      rw [piecesBetween_append _ ends, piecesBetween_singleton nonempty whole, sameLater]
      rfl

/-- Every text has pieces. A character that does not part the text is a piece, or it stands before the
first piece of what follows. -/
theorem exists_pieces (parts : Char → Bool) (text : List Char) :
    ∃ pieces, Pieces parts text pieces := by
  induction text with
  | nil => exact ⟨[], .done⟩
  | cons character text later =>
      obtain ⟨pieces, cut⟩ := later
      by_cases parting : parts character = true
      · exact ⟨pieces, .skip parting cut⟩
      · have alone : ∀ other ∈ [character], parts other = false := by simpa using parting
        have single (ends : EndsPiece parts text) :
            ∃ pieces, Pieces parts (character :: text) pieces :=
          ⟨[character] :: pieces, .piece (List.cons_ne_nil _ _) alone ends cut⟩
        cases cut with
        | done => exact single (by simp [EndsPiece])
        | skip next rest => exact single (by simpa [EndsPiece] using next)
        | piece nonempty whole ends rest =>
            rename_i first unread others
            refine ⟨(character :: first) :: others, ?_⟩
            rw [← List.cons_append]
            exact .piece (List.cons_ne_nil _ _) (List.forall_mem_cons.mpr
              ⟨alone character (List.mem_singleton_self character), whole⟩) ends rest

/-- Cutting a text between the characters that part it gives its pieces. -/
theorem pieces_iff {text : List Char} {pieces : List (List Char)} :
    Pieces parts text pieces ↔ piecesBetween parts text = pieces := by
  constructor
  · exact Pieces.eq_piecesBetween
  · rintro rfl
    obtain ⟨pieces, cut⟩ := exists_pieces parts text
    exact cut.eq_piecesBetween ▸ cut

end FourCards.Text
