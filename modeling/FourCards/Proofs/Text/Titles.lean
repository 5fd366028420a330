/-
This file describes lines that consist of a title, a colon and plain text, and counts how often a
title occurs in a text that is made of such lines.
-/

import Mathlib.Data.List.Infix
import Mathlib.Tactic

namespace FourCards.Text

/-- Plain text has no colons and no line breaks. -/
def Plain (text : List Char) : Prop :=
  text.all (fun character => character ≠ ':' && character ≠ '\n' && character ≠ '\r') = true

instance (text : List Char) : Decidable (Plain text) :=
  inferInstanceAs (Decidable (_ = true))

/-- Plain text has none of three characters. -/
theorem plain_iff {text : List Char} : Plain text ↔ ':' ∉ text ∧ '\n' ∉ text ∧ '\r' ∉ text := by
  simp only [Plain, List.all_eq_true, Bool.and_eq_true, decide_eq_true_eq]
  constructor
  · intro plain
    exact ⟨fun inside => (plain _ inside).1.1 rfl, fun inside => (plain _ inside).1.2 rfl,
      fun inside => (plain _ inside).2 rfl⟩
  · rintro ⟨noColon, noFeed, noReturn⟩ character inside
    refine ⟨⟨?_, ?_⟩, ?_⟩ <;> rintro rfl <;> contradiction

/-- Plain texts make a plain text together. -/
theorem plain_append {text other : List Char} : Plain (text ++ other) ↔ Plain text ∧ Plain other := by
  simp only [Plain, List.all_append, Bool.and_eq_true]

theorem plain_cons {character : Char} {text : List Char} :
    Plain (character :: text) ↔ Plain [character] ∧ Plain text := by
  rw [← plain_append, List.singleton_append]

/-- Plain texts with plain separators make a plain text. -/
theorem Plain.intercalate {separator : List Char} {texts : List (List Char)}
    (separates : Plain separator) (plain : ∀ text ∈ texts, Plain text) :
    Plain (separator.intercalate texts) := by
  induction texts with
  | nil => rfl
  | cons text texts joined =>
      obtain ⟨first, others⟩ := List.forall_mem_cons.mp plain
      cases texts with
      | nil => simpa using first
      | cons next texts =>
          rw [List.intercalate_cons_cons, plain_append, plain_append]
          exact ⟨⟨first, separates⟩, joined others⟩

/-- Digits are plain, and so are points. -/
theorem plain_of_digits {text : List Char}
    (digits : ∀ character ∈ text, character.isDigit = true ∨ character = '.') : Plain text := by
  have others (character : Char) (other : character.isDigit = false) (noPoint : character ≠ '.') :
      character ∉ text := by
    intro inside
    rcases digits character inside with digit | point
    · rw [other] at digit
      cases digit
    · exact noPoint point
  exact plain_iff.mpr
    ⟨others ':' rfl (by decide), others '\n' rfl (by decide), others '\r' rfl (by decide)⟩

/-- The number of places of a text at which a word begins. -/
def occurrences (word text : List Char) : Nat :=
  text.tails.countP fun rest => word.isPrefixOf rest

variable {word text : List Char}

/-- A word occurs once more in a text that begins with it. -/
theorem occurrences_cons (word : List Char) (character : Char) (text : List Char) :
    occurrences word (character :: text) =
      occurrences word text + if word <+: character :: text then 1 else 0 := by
  simp only [occurrences, List.tails_cons, List.countP_cons, List.isPrefixOf_iff_prefix]

/-- A word does not occur in a text that lacks one of its characters. -/
theorem occurrences_eq_zero {character : Char} (inWord : character ∈ word)
    (notInText : character ∉ text) : occurrences word text = 0 := by
  rw [occurrences, List.countP_eq_zero]
  intro rest tail begins
  have inside := (List.isPrefixOf_iff_prefix.mp begins).subset inWord
  exact notInText (((List.mem_tails _ _).mp tail).subset inside)

/-- No word occurs in an empty text. -/
theorem occurrences_nil (nonempty : word ≠ []) : occurrences word [] = 0 :=
  occurrences_eq_zero (List.head_mem nonempty) List.not_mem_nil

/-- A word that has no line break does not begin in one line and end in the next. -/
theorem prefix_line_iff {line : List Char} (oneLine : '\n' ∉ word) :
    word <+: line ++ '\n' :: text ↔ word <+: line := by
  constructor
  · intro begins
    rcases List.prefix_or_prefix_of_prefix begins (List.prefix_append line ('\n' :: text)) with
      within | beyond
    · exact within
    · obtain ⟨rest, rfl⟩ := beyond
      rw [List.prefix_append_right_inj] at begins
      cases rest with
      | nil => simp
      | cons character rest =>
          obtain rfl := (List.cons_prefix_cons.mp begins).1
          simp at oneLine
  · exact fun begins => begins.trans (List.prefix_append _ _)

/-- A word of one line occurs in the first line or after it. -/
theorem occurrences_line {line : List Char} (nonempty : word ≠ []) (oneLine : '\n' ∉ word) :
    occurrences word (line ++ '\n' :: text) = occurrences word line + occurrences word text := by
  induction line with
  | nil =>
      have none : ¬ word <+: [] ++ '\n' :: text := by
        rwa [prefix_line_iff oneLine, List.prefix_nil]
      rw [List.nil_append] at none ⊢
      rw [occurrences_cons, if_neg none, occurrences_nil nonempty, Nat.zero_add, Nat.add_zero]
  | cons character line counted =>
      have same : word <+: character :: line ++ '\n' :: text ↔ word <+: character :: line :=
        prefix_line_iff oneLine
      rw [List.cons_append] at same ⊢
      rw [occurrences_cons, occurrences_cons, counted, if_congr same rfl rfl]
      omega

/-- Lines that are each ended are parted again at their ends. -/
theorem splitOn_lines {lines : List (List Char)} (oneLine : ∀ line ∈ lines, '\n' ∉ line) :
    (lines.flatMap fun line => line ++ ['\n']).splitOn '\n' = lines ++ [[]] := by
  induction lines with
  | nil => rfl
  | cons line lines parted =>
      obtain ⟨first, others⟩ := List.forall_mem_cons.mp oneLine
      rw [List.flatMap_cons, List.append_assoc, List.singleton_append,
        List.splitOn_append_cons_self_of_not_mem first, parted others, List.cons_append]

/-- The occurrences in lines that are each ended are those in the single lines. -/
theorem occurrences_lines (nonempty : word ≠ []) (oneLine : '\n' ∉ word) (lines : List (List Char)) :
    occurrences word (lines.flatMap fun line => line ++ ['\n']) = (lines.map (occurrences word)).sum := by
  induction lines with
  | nil => exact occurrences_nil nonempty
  | cons line lines counted =>
      rw [List.flatMap_cons, List.append_assoc, List.singleton_append,
        occurrences_line nonempty oneLine, counted, List.map_cons, List.sum_cons]

/-- A title, the colon after it and plain text. -/
def titled (title rest : List Char) : List Char :=
  title ++ ':' :: ' ' :: rest

variable {name title rest : List Char}

/-- The rest of a line comes after its title. -/
theorem titled_append (title rest : List Char) : titled title rest = titled title [] ++ rest := by
  simp [titled]

theorem titled_nil (rest : List Char) : titled [] rest = ':' :: ' ' :: rest := rfl

theorem titled_cons (character : Char) (title rest : List Char) :
    titled (character :: title) rest = character :: titled title rest := rfl

/-- A name with a colon begins a line only if it is the title of the line. -/
theorem titled_nil_prefix_iff (nameColon : ':' ∉ name) (titleColon : ':' ∉ title) :
    titled name [] <+: titled title rest ↔ name = title := by
  constructor
  · rintro ⟨tail, joined⟩
    rw [titled, titled, List.append_assoc] at joined
    have parts := congrArg (List.splitOn ':') joined
    rw [List.cons_append, List.splitOn_append_cons_self_of_not_mem nameColon,
      List.splitOn_append_cons_self_of_not_mem titleColon] at parts
    exact (List.cons.inj parts).1
  · rintro rfl
    exact (List.prefix_append_right_inj name).mpr ⟨rest, rfl⟩

/-- A name with a colon occurs in a line once more than after its title if the title ends in the name,
and else as often. -/
theorem occurrences_titled (nonempty : name ≠ []) (nameColon : ':' ∉ name) (nameBlank : ' ' ∉ name)
    (titleColon : ':' ∉ title) :
    occurrences (titled name []) (titled title rest) =
      occurrences (titled name []) rest + if name <:+ title then 1 else 0 := by
  induction title with
  | nil =>
      have beginsColon : ¬ titled name [] <+: titled [] rest := by
        rwa [titled_nil_prefix_iff nameColon titleColon]
      have beginsBlank : ¬ titled name [] <+: ' ' :: rest := by
        obtain ⟨character, others, rfl⟩ := List.exists_cons_of_ne_nil nonempty
        intro begins
        obtain rfl := (List.cons_prefix_cons.mp begins).1
        simp at nameBlank
      have noEnd : ¬ name <:+ [] := by rwa [List.suffix_nil]
      rw [titled_nil] at beginsColon ⊢
      rw [occurrences_cons, occurrences_cons, if_neg beginsColon, if_neg beginsBlank, if_neg noEnd]
  | cons character title counted =>
      have begins : titled name [] <+: titled (character :: title) rest ↔ name = character :: title :=
        titled_nil_prefix_iff nameColon titleColon
      rw [titled_cons] at begins ⊢
      rw [occurrences_cons, counted fun inside => titleColon (List.mem_cons_of_mem character inside),
        if_congr begins rfl rfl]
      by_cases whole : name = character :: title
      · have longer : ¬ name <:+ title := by
          intro ends
          have length := ends.length_le
          rw [whole, List.length_cons] at length
          omega
        rw [if_neg longer, if_pos whole, if_pos (whole ▸ List.suffix_refl _), Nat.add_zero]
      · have ends : name <:+ character :: title ↔ name <:+ title := by
          rw [List.suffix_cons_iff, or_iff_right whole]
        rw [if_neg whole, Nat.add_zero, if_congr ends rfl rfl]

end FourCards.Text
