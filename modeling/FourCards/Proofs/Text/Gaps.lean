/-
This file says where whitespace stands in a text. The numbers of a text depend on it only where it
separates digits.
-/

import FourCards.Proofs.Text.Runs

namespace FourCards.Text

/-- Whitespace stands where so many other characters have been written. -/
def GapAt (place : Nat) (text : List Char) : Prop :=
  ∃ before blank after, text = before ++ blank :: after ∧ isAsciiWhitespace blank = true ∧
    (strip before).length = place

/-- The texts are the same without whitespace. Where two digits then stand side by side, whitespace
separates them in both texts or in neither. -/
structure SameSeparations (text other : List Char) : Prop where
  stripped : strip text = strip other
  separated : ∀ place, (strip text)[place]?.any Char.isDigit = true →
    (strip text)[place + 1]?.any Char.isDigit = true →
      (GapAt (place + 1) text ↔ GapAt (place + 1) other)

variable {character : Char} {text other : List Char} {place : Nat}

/-- Whitespace is removed from both parts of a text. -/
theorem strip_append (text other : List Char) : strip (text ++ other) = strip text ++ strip other :=
  List.filter_append ..

/-- Nothing is left of whitespace. -/
theorem strip_blanks {blanks : List Char}
    (blank : ∀ character ∈ blanks, isAsciiWhitespace character = true) : strip blanks = [] := by
  simpa [strip] using blank

/-- Whitespace in front makes a gap there and leaves the others. -/
theorem gapAt_cons_blank (blank : isAsciiWhitespace character = true) :
    GapAt place (character :: text) ↔ place = 0 ∨ GapAt place text := by
  constructor
  · intro gap
    obtain ⟨before, space, after, joined, isSpace, count⟩ := gap
    cases before with
    | nil => exact .inl count.symm
    | cons first before =>
        obtain ⟨rfl, rfl⟩ := List.cons.inj joined
        rw [strip_cons_blank blank] at count
        exact .inr ⟨before, space, after, rfl, isSpace, count⟩
  · intro gap
    rcases gap with rfl | ⟨before, space, after, rfl, isSpace, count⟩
    · exact ⟨[], character, text, rfl, blank, rfl⟩
    · exact ⟨character :: before, space, after, rfl, isSpace, by
        rw [strip_cons_blank blank, count]⟩

/-- No whitespace stands before the first character if this is no whitespace. -/
theorem not_gapAt_zero (kept : isAsciiWhitespace character = false) :
    ¬ GapAt 0 (character :: text) := by
  intro gap
  obtain ⟨before, space, after, joined, isSpace, count⟩ := gap
  cases before with
  | nil =>
      obtain ⟨rfl, -⟩ := List.cons.inj joined
      rw [kept] at isSpace
      cases isSpace
  | cons first before =>
      obtain ⟨rfl, -⟩ := List.cons.inj joined
      rw [strip_cons kept] at count
      cases count

/-- A character in front that is kept moves the gaps by one place. -/
theorem gapAt_cons (kept : isAsciiWhitespace character = false) :
    GapAt (place + 1) (character :: text) ↔ GapAt place text := by
  constructor
  · intro gap
    obtain ⟨before, space, after, joined, isSpace, count⟩ := gap
    cases before with
    | nil => cases count
    | cons first before =>
        obtain ⟨rfl, rfl⟩ := List.cons.inj joined
        rw [strip_cons kept] at count
        exact ⟨before, space, after, rfl, isSpace, Nat.succ.inj count⟩
  · intro gap
    obtain ⟨before, space, after, rfl, isSpace, count⟩ := gap
    exact ⟨character :: before, space, after, rfl, isSpace, by
      rw [strip_cons kept, List.length_cons, count]⟩

/-- What stands before a text moves its inner gaps by the length that counts. -/
theorem gapAt_append_left (before : List Char) :
    GapAt ((strip before).length + (place + 1)) (before ++ text) ↔ GapAt (place + 1) text := by
  induction before with
  | nil => rw [List.nil_append, strip, List.filter_nil, List.length_nil, Nat.zero_add]
  | cons first before inductionHypothesis =>
      rw [List.cons_append]
      by_cases blank : isAsciiWhitespace first = true
      · rw [strip_cons_blank blank, gapAt_cons_blank blank, inductionHypothesis]
        simp
      · have kept := Bool.eq_false_of_not_eq_true blank
        rw [strip_cons kept, List.length_cons, Nat.add_right_comm, gapAt_cons kept,
          inductionHypothesis]

/-- What stands after a text moves none of its gaps before its last character. -/
theorem gapAt_append_right (after : List Char) (inside : place < (strip text).length) :
    GapAt place (text ++ after) ↔ GapAt place text := by
  induction text generalizing place with
  | nil => cases inside
  | cons first text inductionHypothesis =>
      rw [List.cons_append]
      by_cases blank : isAsciiWhitespace first = true
      · rw [strip_cons_blank blank] at inside
        rw [gapAt_cons_blank blank, gapAt_cons_blank blank, inductionHypothesis inside]
      · have kept := Bool.eq_false_of_not_eq_true blank
        cases place with
        | zero => simp only [not_gapAt_zero kept]
        | succ place =>
            rw [strip_cons kept, List.length_cons, Nat.add_lt_add_iff_right] at inside
            rw [gapAt_cons kept, gapAt_cons kept, inductionHypothesis inside]

/-- After a digit, whitespace is a gap exactly if there is any. -/
theorem gapAt_one {digit : Char} (digitKept : isAsciiWhitespace digit = false)
    {blanks : List Char} (blank : ∀ space ∈ blanks, isAsciiWhitespace space = true)
    (kept : isAsciiWhitespace character = false) :
    GapAt 1 (digit :: (blanks ++ character :: text)) ↔ blanks ≠ [] := by
  rw [gapAt_cons digitKept]
  cases blanks with
  | nil => simp only [List.nil_append, not_gapAt_zero kept, ne_eq, not_true]
  | cons space blanks =>
      rw [List.cons_append, gapAt_cons_blank (blank space (List.mem_cons_self ..))]
      simp

/-- What two texts have behind the same characters is separated alike. -/
theorem SameSeparations.of_append {before otherBefore : List Char}
    (same : SameSeparations (before ++ text) (otherBefore ++ other))
    (beforeStripped : strip before = strip otherBefore) : SameSeparations text other := by
  obtain ⟨stripped, separated⟩ := same
  rw [strip_append, strip_append, beforeStripped, List.append_cancel_left_eq] at stripped
  constructor
  · exact stripped
  · intro place left right
    have shifted := separated ((strip before).length + place)
    rw [strip_append, Nat.add_assoc, List.getElem?_append_right (Nat.le_add_right ..),
      List.getElem?_append_right (Nat.le_add_right ..), Nat.add_sub_cancel_left,
      Nat.add_sub_cancel_left, gapAt_append_left, beforeStripped, gapAt_append_left] at shifted
    exact shifted left right

/-- Whitespace at the ends separates nothing. -/
theorem sameSeparations_padded {leading trailing : List Char}
    (leadingBlank : ∀ character ∈ leading, isAsciiWhitespace character = true)
    (trailingBlank : ∀ character ∈ trailing, isAsciiWhitespace character = true)
    (text : List Char) : SameSeparations (leading ++ text ++ trailing) text := by
  have stripped : strip (leading ++ text ++ trailing) = strip text := by
    rw [strip_append, strip_append, strip_blanks leadingBlank, strip_blanks trailingBlank,
      List.nil_append, List.append_nil]
  constructor
  · exact stripped
  · intro place left right
    rw [stripped] at right
    have inside : place + 1 < (strip text).length := by
      obtain ⟨digit, found, -⟩ := (Option.any_eq_true ..).mp right
      exact (List.getElem?_eq_some_iff.mp found).1
    have moved := @gapAt_append_left (text ++ trailing) place leading
    rw [strip_blanks leadingBlank, List.length_nil, Nat.zero_add] at moved
    rw [List.append_assoc, moved, gapAt_append_right trailing inside]

/-- Characters that are no digits end the pending number if there are any. -/
theorem scan_noDigits {parts : List Char}
    (noDigits : ∀ character ∈ parts, character.isDigit = false) (pending : Option Nat)
    (text : List Char) : scan pending (parts ++ text) =
      if parts = [] then scan pending text else pending.toList ++ scan none text := by
  induction parts generalizing pending with
  | nil => rfl
  | cons character parts inductionHypothesis =>
      obtain ⟨noDigit, later⟩ := List.forall_mem_cons.mp noDigits
      rw [List.cons_append, scan, noDigit, if_neg Bool.false_ne_true, inductionHypothesis later]
      simp

theorem noDigits_of_blanks {blanks : List Char}
    (blank : ∀ character ∈ blanks, isAsciiWhitespace character = true) :
    ∀ character ∈ blanks, character.isDigit = false :=
  fun character inside => isDigit_of_blank (blank character inside)

/-- In whitespace nothing but a pending number is found. -/
theorem scan_blanks {blanks : List Char} (empty : strip blanks = []) (pending : Option Nat) :
    scan pending blanks = pending.toList := by
  have blank : ∀ character ∈ blanks, isAsciiWhitespace character = true := by
    simpa using List.filter_eq_nil_iff.mp empty
  have scanned := scan_noDigits (noDigits_of_blanks blank) pending []
  rwa [List.append_nil, scan, scan, Option.toList_none, List.append_nil, ite_self] at scanned

/-- The first character that is no whitespace has only whitespace before it. -/
theorem exists_blanks {stripped : List Char} (starts : strip text = character :: stripped) :
    ∃ blanks after, text = blanks ++ character :: after ∧
      (∀ space ∈ blanks, isAsciiWhitespace space = true) ∧
        isAsciiWhitespace character = false ∧ strip after = stripped := by
  obtain ⟨blanks, after, joined, blank, kept, rest⟩ := List.filter_eq_cons_iff.mp starts
  exact ⟨blanks, after, joined, by simpa using blank, by simpa using kept, rest⟩

/-- The texts have the same numbers behind no number, and behind one whose last digit they are
separated from alike. -/
def ScannedAlike (text other : List Char) : Prop :=
  (SameSeparations text other → scan none text = scan none other) ∧
    ∀ (number : Nat) (digit : Char), digit.isDigit = true →
      SameSeparations (digit :: text) (digit :: other) →
        scan (some number) text = scan (some number) other

/-- A character that comes first in both texts goes on the pending number in both or in neither. -/
theorem ScannedAlike.cons (alike : ScannedAlike text other)
    (same : SameSeparations (character :: text) (character :: other)) (pending : Option Nat) :
    scan pending (character :: text) = scan pending (character :: other) := by
  by_cases digit : character.isDigit = true
  · rw [scan, scan, if_pos digit, if_pos digit]
    exact alike.2 _ character digit same
  · have later : SameSeparations ([character] ++ text) ([character] ++ other) := same
    rw [scan, scan, if_neg digit, if_neg digit, alike.1 (later.of_append rfl)]

/-- The induction is on the texts without their whitespace, of which the first character is read. -/
theorem scannedAlike_of_strip (stripped : List Char) : ∀ {text other : List Char},
    strip text = stripped → strip other = stripped → ScannedAlike text other := by
  induction stripped with
  | nil =>
      intro text other empty otherEmpty
      constructor
      · intro same
        rw [scan_blanks empty, scan_blanks otherEmpty]
      · intro number digit isDigit same
        rw [scan_blanks empty, scan_blanks otherEmpty]
  | cons character stripped inductionHypothesis =>
      intro text other starts otherStarts
      obtain ⟨blanks, after, rfl, blank, kept, rest⟩ := exists_blanks starts
      obtain ⟨otherBlanks, otherAfter, rfl, otherBlank, -, otherRest⟩ := exists_blanks otherStarts
      have alike := inductionHypothesis rest otherRest
      have scanned := scan_noDigits (noDigits_of_blanks blank)
      have otherScanned := scan_noDigits (noDigits_of_blanks otherBlank)
      constructor
      · intro same
        have here := same.of_append (by rw [strip_blanks blank, strip_blanks otherBlank])
        rw [scanned, otherScanned, alike.cons here none, Option.toList_none, List.nil_append,
          ite_self, ite_self]
      · intro number digit isDigit same
        have digitKept := isAsciiWhitespace_of_digit isDigit
        have joined : SameSeparations (digit :: blanks ++ character :: after)
            (digit :: otherBlanks ++ character :: otherAfter) := same
        have here := joined.of_append (by
          rw [strip_cons digitKept, strip_cons digitKept, strip_blanks blank,
            strip_blanks otherBlank])
        by_cases goesOn : character.isDigit = true
        · -- Whitespace before a digit separates it from the pending number in both texts or neither.
          have separated : blanks = [] ↔ otherBlanks = [] := by
            have gaps := same.separated 0
            rw [Nat.zero_add, gapAt_one digitKept blank kept, gapAt_one digitKept otherBlank kept,
              strip_cons digitKept, starts] at gaps
            exact not_iff_not.mp (gaps isDigit goesOn)
          rw [scanned, otherScanned, alike.cons here, alike.cons here]
          simp only [separated]
        · -- Any other character ends the pending number itself.
          have later : SameSeparations ([character] ++ after) ([character] ++ otherAfter) := here
          rw [scanned, otherScanned]
          simp [scan, goesOn, alike.1 (later.of_append rfl)]

/-- Whitespace plays no part in the numbers of a text but where it separates digits. -/
theorem numbers_congr (same : SameSeparations text other) : numbers text = numbers other :=
  (scannedAlike_of_strip _ rfl same.stripped.symm).1 same

end FourCards.Text
