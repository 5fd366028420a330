/-
This file describes the runs of digits in a text by the places where they end, and says when the
text has the same runs without its whitespace.
-/

import FourCards.Text.Digits
import FourCards.Text.Whitespace
import FourCards.Proofs.Text.Pieces

namespace FourCards.Text

/-- The maximal runs of digits, in order of appearance. -/
def digitRuns (text : List Char) : List (List Char) :=
  (text.splitOnP fun character => !character.isDigit).filter fun run => !run.isEmpty

/-- The text does not begin with a digit. -/
def EndsRun (unread : List Char) : Prop :=
  ∀ character ∈ unread.head?, character.isDigit = false

/-- No digits go on at the end of a text. -/
theorem endsRun_nil : EndsRun [] := by
  simp [EndsRun]

/-- Where a run ends there are no more digits to take. -/
theorem EndsRun.takeWhile {unread : List Char} (ends : EndsRun unread) :
    unread.takeWhile Char.isDigit = [] := by
  cases unread with
  | nil => rfl
  | cons character tail => simp [ends character rfl]

/-- Where a run ends there are no digits to pass. -/
theorem EndsRun.dropWhile {unread : List Char} (ends : EndsRun unread) :
    unread.dropWhile Char.isDigit = unread := by
  cases unread with
  | nil => rfl
  | cons character tail => simp [ends character rfl]

/-- A run of digits is taken up to its end. -/
theorem takeWhile_run {run unread : List Char}
    (digits : ∀ character ∈ run, character.isDigit = true) (ends : EndsRun unread) :
    (run ++ unread).takeWhile Char.isDigit = run := by
  rw [List.takeWhile_append_of_pos digits, ends.takeWhile, List.append_nil]

/-- After a run of digits the rest is left. -/
theorem dropWhile_run {run unread : List Char}
    (digits : ∀ character ∈ run, character.isDigit = true) (ends : EndsRun unread) :
    (run ++ unread).dropWhile Char.isDigit = unread := by
  rw [List.dropWhile_append_of_pos digits, ends.dropWhile]

theorem takeWhile_isDigit (text : List Char) :
    ∀ character ∈ text.takeWhile Char.isDigit, character.isDigit = true :=
  List.all_eq_true.mp List.all_takeWhile

theorem digitRuns_nil : digitRuns [] = [] := rfl

/-- A character that is no digit parts the runs before it from those after it. -/
theorem digitRuns_append_cons (left : List Char) {character : Char} (right : List Char)
    (parts : character.isDigit = false) :
    digitRuns (left ++ character :: right) = digitRuns left ++ digitRuns right :=
  piecesBetween_append_cons left right (by rw [parts, Bool.not_false])

/-- What is no digit belongs to no run. -/
theorem digitRuns_cons (character : Char) (text : List Char)
    (parts : character.isDigit = false) : digitRuns (character :: text) = digitRuns text :=
  piecesBetween_cons text (by rw [parts, Bool.not_false])

/-- A text of digits is one run. -/
theorem digitRuns_digits {run : List Char} (nonempty : run ≠ [])
    (digits : ∀ character ∈ run, character.isDigit = true) : digitRuns run = [run] :=
  piecesBetween_singleton nonempty fun character inside => by
    rw [digits character inside, Bool.not_true]

/-- Where a run ends the text is read by itself. -/
theorem digitRuns_run (run : List Char) {unread : List Char} (ends : EndsRun unread) :
    digitRuns (run ++ unread) = digitRuns run ++ digitRuns unread :=
  piecesBetween_append run fun character next => by rw [ends character next, Bool.not_false]

/-- No block of ASCII whitespace stands between two digits. -/
def Unbroken (text : List Char) : Prop :=
  ∀ (left right : Char) (blanks : List Char), left.isDigit = true → right.isDigit = true →
    (∀ character ∈ blanks, isAsciiWhitespace character = true) →
      left :: (blanks ++ [right]) <:+: text → blanks = []

/-- No run of a part of a text is broken if none of the text is. -/
theorem Unbroken.of_infix {part text : List Char} (unbroken : Unbroken text)
    (inside : part <:+: text) : Unbroken part := by
  intro left right blanks leftDigit rightDigit blank within
  exact unbroken left right blanks leftDigit rightDigit blank (within.trans inside)

/-- Whitespace is no digit. -/
theorem isDigit_of_blank {character : Char} (blank : isAsciiWhitespace character = true) :
    character.isDigit = false := by
  simp only [isAsciiWhitespace, Bool.or_eq_true, decide_eq_true_eq] at blank
  rcases blank with (((rfl | rfl) | rfl) | rfl) | rfl <;> decide

/-- A digit is no whitespace. -/
theorem isAsciiWhitespace_of_digit {character : Char} (digit : character.isDigit = true) :
    isAsciiWhitespace character = false := by
  by_contra blank
  rw [isDigit_of_blank (by simpa using blank)] at digit
  cases digit

/-- Only a digit with a blank after it can break a number, and only if a digit comes next. -/
theorem unbroken_cons {character : Char} {text : List Char} :
    Unbroken (character :: text) ↔
      (character.isDigit = true → text.head?.any isAsciiWhitespace = true →
        EndsRun (text.dropWhile isAsciiWhitespace)) ∧ Unbroken text := by
  constructor
  · intro unbroken
    refine ⟨?_, unbroken.of_infix ⟨[character], [], by simp⟩⟩
    intro digit startsBlank right next
    by_contra rightDigit
    obtain ⟨after, dropped⟩ := List.head?_eq_some_iff.mp next
    obtain ⟨blank, first, isBlank⟩ := (Option.any_eq_true _ _).mp startsBlank
    obtain ⟨tail, rfl⟩ := List.head?_eq_some_iff.mp first
    have joined := List.takeWhile_append_dropWhile (p := isAsciiWhitespace) (l := blank :: tail)
    rw [dropped] at joined
    have none := unbroken character right ((blank :: tail).takeWhile isAsciiWhitespace) digit
      (by simpa using rightDigit) (List.all_eq_true.mp List.all_takeWhile)
      ⟨[], after, by
        simpa only [List.nil_append, List.cons_append, List.append_assoc, List.cons.injEq,
          true_and] using joined⟩
    simp [isBlank] at none
  · rintro ⟨parts, unbroken⟩ left right blanks leftDigit rightDigit blank inside
    rcases List.infix_cons_iff.mp inside with ⟨after, starts⟩ | later
    · simp only [List.cons_append, List.append_assoc, List.nil_append, List.cons.injEq] at starts
      obtain ⟨rfl, rfl⟩ := starts
      cases blanks with
      | nil => rfl
      | cons first others =>
          have ends := parts leftDigit (blank first (by simp))
          rw [List.dropWhile_append_of_pos blank] at ends
          simp [EndsRun, isAsciiWhitespace_of_digit rightDigit, rightDigit] at ends
    · exact unbroken left right blanks leftDigit rightDigit blank later

theorem unbroken_nil : Unbroken [] := by
  intro left right blanks leftDigit rightDigit blank inside
  simp at inside

instance : (unread : List Char) → Decidable (EndsRun unread)
  | [] => isTrue endsRun_nil
  | character :: _ => decidable_of_iff (character.isDigit = false) (by simp [EndsRun])

instance decidableUnbroken : (text : List Char) → Decidable (Unbroken text)
  | [] => isTrue unbroken_nil
  | _ :: text =>
      have := decidableUnbroken text
      decidable_of_iff _ unbroken_cons.symm

/-- Whitespace in front is removed. -/
theorem strip_cons_blank {character : Char} (blank : isAsciiWhitespace character = true)
    (text : List Char) : strip (character :: text) = strip text := by
  simp [strip, blank]

/-- All else in front is kept. -/
theorem strip_cons {character : Char} (kept : isAsciiWhitespace character = false)
    (text : List Char) : strip (character :: text) = character :: strip text := by
  simp [strip, kept]

/-- After a digit and a blank, the text without whitespace does not go on with a digit. -/
theorem endsRun_strip {run text : List Char} {digit blank : Char} (isDigit : digit.isDigit = true)
    (isBlank : isAsciiWhitespace blank = true)
    (unbroken : Unbroken (run ++ digit :: blank :: text)) : EndsRun (strip text) := by
  intro right first
  by_contra rightDigit
  obtain ⟨tail, stripped⟩ := List.head?_eq_some_iff.mp first
  obtain ⟨blanks, after, rfl, blanksBlank, -, -⟩ := List.filter_eq_cons_iff.mp stripped
  have blankBlanks : ∀ character ∈ blank :: blanks, isAsciiWhitespace character = true := by
    intro character inside
    rcases List.mem_cons.mp inside with rfl | inside
    · exact isBlank
    · simpa using blanksBlank character inside
  have none := unbroken digit right (blank :: blanks) isDigit (by simpa using rightDigit)
    blankBlanks ⟨run, after, by simp⟩
  cases none

/-- The induction carries the digits read since the last other character. -/
theorem digitRuns_append_strip (text : List Char) :
    ∀ run : List Char, (∀ character ∈ run, character.isDigit = true) → Unbroken (run ++ text) →
      digitRuns (run ++ strip text) = digitRuns (run ++ text) := by
  induction text with
  | nil => intro run _ _; rfl
  | cons character text inductionHypothesis =>
      intro run digits unbroken
      have later : Unbroken text :=
        unbroken.of_infix ⟨run ++ [character], [], by simp⟩
      have tailSame := inductionHypothesis [] (by simp) later
      by_cases blank : isAsciiWhitespace character = true
      · rw [strip_cons_blank blank, digitRuns_append_cons run text (isDigit_of_blank blank)]
        rcases List.eq_nil_or_concat run with rfl | ⟨before, digit, rfl⟩
        · exact tailSame
        · have ends : EndsRun (strip text) := by
            have whole : Unbroken (before ++ digit :: character :: text) := by
              simpa using unbroken
            exact endsRun_strip (digits digit (by simp)) blank whole
          rw [digitRuns_run _ ends]
          exact congrArg _ tailSame
      · rw [strip_cons (Bool.eq_false_of_not_eq_true blank)]
        by_cases digit : character.isDigit = true
        · have longer : ∀ other ∈ run ++ [character], other.isDigit = true := by
            intro other inside
            rcases List.mem_append.mp inside with inside | inside
            · exact digits other inside
            · rwa [List.mem_singleton.mp inside]
          have grown := inductionHypothesis (run ++ [character]) longer (by simpa using unbroken)
          simpa using grown
        · have parts : character.isDigit = false := by simpa using digit
          rw [digitRuns_append_cons run _ parts, digitRuns_append_cons run _ parts]
          exact congrArg _ tailSame

/-- A text has the same runs of digits without its whitespace if none stands inside a number. -/
theorem digitRuns_strip {text : List Char} (unbroken : Unbroken text) :
    digitRuns (strip text) = digitRuns text :=
  digitRuns_append_strip text [] (by simp) unbroken

end FourCards.Text
