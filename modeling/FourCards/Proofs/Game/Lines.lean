/-
This file describes how input is cut into lines and what is read from a line: its text without the
whitespace around it, if its bytes can be decoded.
-/

import FourCards.Game.Play
import Mathlib.Data.List.TakeWhile
import Mathlib.Tactic

namespace FourCards

namespace Text

variable {before after : List Char}

/-- Whitespace at the end is trimmed. -/
theorem trim_append_blank (text : List Char)
    (blank : ∀ character ∈ after, isWhitespace character = true) :
    trim (text ++ after) = trim text := by
  have dropped : after.dropWhile isWhitespace = [] := List.dropWhile_eq_nil_iff.mpr blank
  have droppedBack : after.reverse.dropWhile isWhitespace = [] :=
    List.dropWhile_eq_nil_iff.mpr fun character inside => blank character (by simpa using inside)
  rw [trim, trim, List.dropWhile_append]
  split
  · rename_i allBlank
    rw [dropped, List.isEmpty_iff.mp allBlank]
  · rw [List.reverse_append, List.dropWhile_append, droppedBack]
    rfl

/-- Whitespace around a text makes no difference to what is left when it is trimmed. -/
theorem trim_padded (text : List Char)
    (blankBefore : ∀ character ∈ before, isWhitespace character = true)
    (blankAfter : ∀ character ∈ after, isWhitespace character = true) :
    trim (before ++ text ++ after) = trim text := by
  rw [trim_append_blank _ blankAfter, trim, List.dropWhile_append_of_pos blankBefore, trim]

end Text

/-- The input in which a line feed ends each of these lines. -/
def terminated (lines : List (List UInt8)) : List UInt8 :=
  lines.flatMap fun line => line ++ [10]

theorem inputLines_nil : inputLines [] = [] := rfl

/-- The first line feed ends the first line. -/
theorem inputLines_cons {line : List UInt8} (whole : 10 ∉ line) (more : List UInt8) :
    inputLines (line ++ 10 :: more) = line :: inputLines more := by
  have nonempty : more.splitOn 10 ≠ [] := List.splitOn_ne_nil 10 more
  simp only [inputLines, List.splitOn_append_cons_self_of_not_mem whole more]
  rw [List.getLast?_cons_of_ne_nil nonempty, List.dropLast_cons_of_ne_nil nonempty]
  split <;> rfl

/-- Lines that are ended come before the lines of what follows. -/
theorem inputLines_terminated_append {lines : List (List UInt8)} (whole : ∀ line ∈ lines, 10 ∉ line)
    (more : List UInt8) : inputLines (terminated lines ++ more) = lines ++ inputLines more := by
  induction lines with
  | nil => rfl
  | cons line lines cut =>
      have later := cut fun other inside => whole other (List.mem_cons_of_mem line inside)
      rw [terminated, List.flatMap_cons, ← terminated, List.append_assoc, List.append_assoc,
        List.singleton_append, inputLines_cons (whole line List.mem_cons_self), later]
      rfl

/-- Lines that are ended are cut at their ends. -/
theorem inputLines_terminated {lines : List (List UInt8)} (whole : ∀ line ∈ lines, 10 ∉ line) :
    inputLines (terminated lines) = lines := by
  have cut := inputLines_terminated_append whole []
  rwa [List.append_nil, inputLines_nil, List.append_nil] at cut

/-- The last line needs no line feed, unless it is empty. -/
theorem inputLines_singleton {line : List UInt8} (whole : 10 ∉ line) (nonempty : line ≠ []) :
    inputLines line = [line] := by
  simp [inputLines, List.splitOn_eq_singleton whole, nonempty]

/-- A line is over where nothing follows it or a line feed does. -/
def EndsLine (tail : List UInt8) : Prop :=
  ∀ byte ∈ tail.head?, byte = 10

/-- A line that is ended, or the last one, is the first to be read. -/
theorem exists_inputLines {line tail : List UInt8} (whole : 10 ∉ line) (nonempty : line ≠ [])
    (ends : EndsLine tail) : ∃ later, inputLines (line ++ tail) = line :: later := by
  cases tail with
  | nil => exact ⟨[], by rw [List.append_nil, inputLines_singleton whole nonempty]⟩
  | cons byte rest =>
      obtain rfl : byte = 10 := ends byte rfl
      exact ⟨inputLines rest, inputLines_cons whole rest⟩

/-- What a line says without the whitespace around it, if it can be decoded. -/
def lineText (line : List UInt8) : Option String :=
  (decodeLine line).map fun text => String.ofList (Text.trim text.toList)

/-- What a line asks for, if it can be decoded. -/
def lineMove (line : List UInt8) : Option Move :=
  (decodeLine line).map Move.ofLine

/-- What is asked for depends on what is said alone. -/
theorem Move.ofLine_congr {text other : String} (same : Text.trim text.toList = Text.trim other.toList) :
    ofLine text = ofLine other := by
  simp only [ofLine, same]

/-- Either of two words ends the game. -/
theorem Move.ofLine_eq_quit_iff {text : String} :
    ofLine text = .quit ↔ String.ofList (Text.trim text.toList) = "quit" ∨
      String.ofList (Text.trim text.toList) = "exit" := by
  simp only [ofLine]
  split
  · simpa
  · rename_i others
    simp only [others, iff_false]
    split
    · simp
    · split <;> simp

/-- One word asks for a new hand. -/
theorem Move.ofLine_eq_newHand_iff {text : String} :
    ofLine text = .newHand ↔ String.ofList (Text.trim text.toList) = "new" := by
  simp only [ofLine]
  split
  · rename_i word
    rcases word with word | word <;> simp [word]
  · split
    · rename_i word
      simp [word]
    · split <;> simp_all

/-- One word asks for a hint. -/
theorem Move.ofLine_eq_hint_iff {text : String} :
    ofLine text = .hint ↔ String.ofList (Text.trim text.toList) = "hint" := by
  simp only [ofLine]
  split
  · rename_i word
    rcases word with word | word <;> simp [word]
  · split
    · simpa
    · split <;> simp_all

/-- What a line says settles its move. -/
theorem lineMove_congr {line other : List UInt8} (same : lineText line = lineText other) :
    lineMove line = lineMove other := by
  unfold lineText at same
  unfold lineMove
  cases first : decodeLine line with
  | none =>
      rw [first, Option.map_none] at same
      rw [Option.map_eq_none_iff.mp same.symm]
  | some text =>
      rw [first, Option.map_some] at same
      obtain ⟨otherText, second, said⟩ := Option.map_eq_some_iff.mp same.symm
      rw [second, Option.map_some, Option.map_some, Move.ofLine_congr (String.ofList_inj.mp said)]

/-- A line has no move only if it cannot be decoded. -/
theorem lineMove_eq_none_iff {line : List UInt8} : lineMove line = none ↔ lineText line = none := by
  rw [lineMove, lineText, Option.map_eq_none_iff, Option.map_eq_none_iff]

/-- A line ends the game if it says one of two words. -/
theorem lineMove_eq_quit_iff {line : List UInt8} :
    lineMove line = some .quit ↔ lineText line = some "quit" ∨ lineText line = some "exit" := by
  simp only [lineMove, lineText, Option.map_eq_some_iff, Move.ofLine_eq_quit_iff, ← exists_or,
    ← and_or_left]

/-- A line asks for a new hand if it says the word for it. -/
theorem lineMove_eq_newHand_iff {line : List UInt8} :
    lineMove line = some .newHand ↔ lineText line = some "new" := by
  simp only [lineMove, lineText, Option.map_eq_some_iff, Move.ofLine_eq_newHand_iff]

/-- A line asks for a hint if it says the word for it. -/
theorem lineMove_eq_hint_iff {line : List UInt8} :
    lineMove line = some .hint ↔ lineText line = some "hint" := by
  simp only [lineMove, lineText, Option.map_eq_some_iff, Move.ofLine_eq_hint_iff]

/-- The bytes of a line with this text. -/
def lineBytes (text : String) : List UInt8 :=
  text.toByteArray.data.toList

/-- Texts are encoded one after the other. -/
theorem lineBytes_append (text other : String) :
    lineBytes (text ++ other) = lineBytes text ++ lineBytes other := by
  simp [lineBytes, String.toByteArray_append]

/-- Exactly the bytes of texts can be decoded. -/
theorem decodeLine_eq_some_iff {line : List UInt8} {text : String} :
    decodeLine line = some text ↔ line = lineBytes text := by
  constructor
  · intro decoded
    simp only [decodeLine, String.fromUTF8?] at decoded
    split at decoded
    · cases decoded
      rfl
    · cases decoded
  · rintro rfl
    have valid : ByteArray.IsValidUTF8 ⟨(lineBytes text).toArray⟩ := text.isValidUTF8
    rw [decodeLine, String.fromUTF8?, dif_pos valid]
    rfl

/-- A line that does not say the empty text has bytes. -/
theorem ne_nil_of_lineText {line : List UInt8} (said : lineText line ≠ some "") : line ≠ [] := by
  rintro rfl
  have decoded : decodeLine [] = some "" := decodeLine_eq_some_iff.mpr rfl
  exact said (by rw [lineText, decoded]; rfl)

/-- Whitespace around a text, a carriage return among it, is not part of what its line says. -/
theorem lineText_padded {before after : List Char} (text : List Char)
    (blankBefore : ∀ character ∈ before, Text.isWhitespace character = true)
    (blankAfter : ∀ character ∈ after, Text.isWhitespace character = true) :
    lineText (lineBytes (String.ofList (before ++ text ++ after))) =
      lineText (lineBytes (String.ofList text)) := by
  simp only [lineText, decodeLine_eq_some_iff.mpr rfl, Option.map_some, String.toList_ofList,
    Text.trim_padded text blankBefore blankAfter]

/-- A carriage return before the line feed changes nothing. -/
theorem lineText_carriageReturn {line : List UInt8} {text : String}
    (said : lineText line = some text) : lineText (line ++ [13]) = some text := by
  obtain ⟨whole, decoded, -⟩ := Option.map_eq_some_iff.mp said
  obtain rfl := decodeLine_eq_some_iff.mp decoded
  have returned : lineBytes whole ++ [13] =
      lineBytes (String.ofList ([] ++ whole.toList ++ ['\r'])) := by
    rw [List.nil_append, String.ofList_append, lineBytes_append, String.ofList_toList]
    rfl
  have blank : Text.isWhitespace '\r' = true := by decide
  rw [returned, lineText_padded whole.toList (by simp) (by simpa using blank), String.ofList_toList,
    said]

end FourCards
