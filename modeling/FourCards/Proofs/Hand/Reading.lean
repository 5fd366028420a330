/-
This file says how a hand is read from a text: which pieces of it are values, and which complaint is
made where there are reasons for several.
-/

import FourCards.Hand.Basic
import FourCards.Proofs.Text.Pieces

namespace FourCards

/-- Digits without a plus are left as they are. -/
theorem Text.unsigned_digits {digits : List Char}
    (digitsOnly : ∀ character ∈ digits, character.isDigit = true) : unsigned digits = digits := by
  unfold unsigned
  split
  · exact absurd (digitsOnly '+' List.mem_cons_self) (by decide)
  · rfl

/-- A number is written in decimal digits, after at most one plus. -/
theorem Text.readNumber?_eq_some_iff {largest value : Nat} {text : List Char} :
    readNumber? largest text = some value ↔
      ∃ digits, (text = digits ∨ text = '+' :: digits) ∧ digits ≠ [] ∧
        (∀ character ∈ digits, character.isDigit = true) ∧ numberOf digits = value ∧
          value ≤ largest := by
  simp only [readNumber?, List.all_eq_true]
  constructor
  · intro read
    split at read
    · rename_i checked
      obtain rfl := Option.some.inj read
      refine ⟨unsigned text, ?_, checked.1, checked.2.1, rfl, checked.2.2⟩
      unfold unsigned
      split
      · exact .inr rfl
      · exact .inl rfl
    · cases read
  · rintro ⟨digits, written, nonempty, digitsOnly, rfl, bounded⟩
    have rest : unsigned text = digits := by
      rcases written with rfl | rfl
      · exact unsigned_digits digitsOnly
      · rfl
    rw [rest, if_pos ⟨nonempty, digitsOnly, bounded⟩]

/-- A list is read item by item. -/
theorem mapM_eq_ok {α β ε : Type} {read : α → Except ε β} {items : List α} {values : List β}
    (each : List.Forall₂ (fun item value => read item = .ok value) items values) :
    items.mapM read = .ok values := by
  induction each with
  | nil => rfl
  | cons first others readOthers =>
      rw [List.mapM_cons, first, readOthers]
      rfl

/-- The first item that cannot be read is the one complained of. -/
theorem mapM_eq_error {α β ε : Type} {read : α → Except ε β} {before after : List α} {item : α}
    {error : ε} (readable : ∀ earlier ∈ before, ∃ value, read earlier = .ok value)
    (failed : read item = .error error) :
    (before ++ item :: after).mapM read = .error error := by
  induction before with
  | nil =>
      rw [List.nil_append, List.mapM_cons, failed]
      rfl
  | cons first before later =>
      obtain ⟨value, ok⟩ := readable first List.mem_cons_self
      rw [List.cons_append, List.mapM_cons, ok,
        later fun earlier inside => readable earlier (List.mem_cons_of_mem first inside)]
      rfl

/-- Where not all items have a property, there is a first one without it. -/
theorem exists_first {α : Type} {property : α → Prop} {items : List α}
    (fails : ¬ ∀ item ∈ items, property item) :
    ∃ before item after, items = before ++ item :: after ∧
      (∀ earlier ∈ before, property earlier) ∧ ¬ property item := by
  classical
  have found : (items.find? fun item => ¬ property item).isSome := by simpa using fails
  obtain ⟨item, found⟩ := Option.isSome_iff_exists.mp found
  obtain ⟨bad, before, after, listed, good⟩ := List.find?_eq_some_iff_append.mp found
  exact ⟨before, item, after, listed, by simpa using good, by simpa using bad⟩

namespace Hand

/-- Values are written between commas and whitespace. -/
def isSeparator (character : Char) : Bool :=
  character = ',' || Text.isWhitespace character

/-- The tokens of a text are its longest nonempty pieces without commas and whitespace. -/
def Tokens (text : List Char) (tokens : List (List Char)) : Prop :=
  Text.Pieces isSeparator text tokens

/-- The tokens of a text are its pieces. -/
theorem tokens_iff {text : List Char} {tokens : List (List Char)} :
    Tokens text tokens ↔ pieces text = tokens :=
  Text.pieces_iff

/-- A token is read as the number that its digits spell, after at most one plus, up to 255. -/
def ReadsAs (token : List Char) (value : Nat) : Prop :=
  ∃ digits, (token = digits ∨ token = '+' :: digits) ∧ digits ≠ [] ∧
    (∀ character ∈ digits, character.isDigit = true) ∧ Text.numberOf digits = value ∧ value ≤ 255

def Readable (token : List Char) : Prop :=
  ∃ value, ReadsAs token value

/-- A token is read as its value. -/
theorem readValue_of_readsAs {token : List Char} {value : Nat} (reads : ReadsAs token value) :
    readValue token = .ok value := by
  rw [readValue, Text.readNumber?_eq_some_iff.mpr reads]

/-- A token that has no value is complained of. -/
theorem readValue_of_not_readable {token : List Char} (bad : ¬ Readable token) :
    readValue token = .error (.invalidValue (String.ofList token)) := by
  unfold readValue
  split
  · rename_i value read
    exact absurd ⟨value, Text.readNumber?_eq_some_iff.mp read⟩ bad
  · rfl

def InRange (value : Nat) : Prop :=
  1 ≤ value ∧ value ≤ 13

/-- What a text with these tokens comes to. The first one that is not readable is complained of; if all
are readable, their number if it is not four; if it is, the first value out of range; and otherwise they
are a hand. -/
inductive Judged (tokens : List (List Char)) : Except HandError Hand → Prop where
  | invalidValue {before after : List (List Char)} {token : List Char} :
      tokens = before ++ token :: after → (∀ earlier ∈ before, Readable earlier) → ¬ Readable token →
        Judged tokens (.error (.invalidValue (String.ofList token)))
  | wrongSize :
      (∀ token ∈ tokens, Readable token) → tokens.length ≠ 4 →
        Judged tokens (.error (.wrongSize tokens.length))
  | valueOutOfRange {values : Four Nat} {before after : List Nat} {value : Nat} :
      List.Forall₂ ReadsAs tokens values.toList → values.toList = before ++ value :: after →
        (∀ earlier ∈ before, InRange earlier) → ¬ InRange value →
          Judged tokens (.error (.valueOutOfRange value))
  | hand {hand : Hand} : List.Forall₂ ReadsAs tokens hand.toList → Judged tokens (.ok hand)

/-- A hand has four values. -/
theorem ofList_of_length_ne {values : List Nat} (size : values.length ≠ 4) :
    ofList values = .error (.wrongSize values.length) := by
  unfold ofList
  split
  · rename_i four taken
    unfold Four.ofList? at taken
    split at taken
    · exact absurd rfl size
    · cases taken
  · rfl

/-- The first value out of range is complained of. -/
theorem ofValues_of_not_inRange {values : Four Nat} {before after : List Nat} {value : Nat}
    (listed : values.toList = before ++ value :: after)
    (inRange : ∀ earlier ∈ before, InRange earlier) (outside : ¬ InRange value) :
    ofValues values = .error (.valueOutOfRange value) := by
  have found : (values.toList.find? fun value => ¬ (1 ≤ value ∧ value ≤ 13)) = some value := by
    refine List.find?_eq_some_iff_append.mpr ⟨decide_eq_true outside, before, after, listed, ?_⟩
    intro earlier inside
    simpa [InRange] using inRange earlier inside
  unfold ofValues
  split
  · rename_i other search
    rw [Option.some.inj (search.symm.trans found)]
  · rename_i search
    cases search.symm.trans found

/-- Tokens are read one after another. -/
theorem mapM_readValue {tokens : List (List Char)} {values : List Nat}
    (reads : List.Forall₂ ReadsAs tokens values) : tokens.mapM readValue = .ok values :=
  mapM_eq_ok (reads.imp fun _ _ => readValue_of_readsAs)

/-- If every token is readable, all have values. -/
theorem exists_values {tokens : List (List Char)} (readable : ∀ token ∈ tokens, Readable token) :
    ∃ values, List.Forall₂ ReadsAs tokens values := by
  induction tokens with
  | nil => exact ⟨[], .nil⟩
  | cons token tokens others =>
      obtain ⟨value, reads⟩ := readable token List.mem_cons_self
      obtain ⟨values, readOthers⟩ :=
        others fun other inside => readable other (List.mem_cons_of_mem token inside)
      exact ⟨value :: values, .cons reads readOthers⟩

/-- The judgement is what is computed from the tokens. -/
theorem Judged.computed {tokens : List (List Char)} {result : Except HandError Hand}
    (judged : Judged tokens result) : (tokens.mapM readValue >>= ofList) = result := by
  cases judged with
  | invalidValue split readable bad =>
      rw [split, mapM_eq_error (fun earlier inside => ?_) (readValue_of_not_readable bad)]
      · rfl
      · obtain ⟨value, reads⟩ := readable earlier inside
        exact ⟨value, readValue_of_readsAs reads⟩
  | wrongSize readable size =>
      obtain ⟨values, reads⟩ := exists_values readable
      rw [reads.length_eq] at size ⊢
      rw [mapM_readValue reads]
      exact ofList_of_length_ne size
  | valueOutOfRange reads listed inRange outside =>
      rw [mapM_readValue reads]
      exact ofValues_of_not_inRange listed inRange outside
  | hand reads =>
      rename_i hand
      rw [mapM_readValue reads]
      exact hand.ofValuesValues

/-- Something is judged of every list of tokens. -/
theorem exists_judged (tokens : List (List Char)) : ∃ result, Judged tokens result := by
  by_cases readable : ∀ token ∈ tokens, Readable token
  · by_cases size : tokens.length = 4
    · obtain ⟨values, reads⟩ := exists_values readable
      rw [reads.length_eq] at size
      obtain ⟨a, b, c, d, rfl⟩ := List.length_eq_four.mp size
      by_cases inRange : ∀ value ∈ [a, b, c, d], InRange value
      · exact ⟨.ok ⟨⟨a, b, c, d⟩, inRange⟩, .hand reads⟩
      · obtain ⟨before, value, after, listed, earlier, outside⟩ := exists_first inRange
        have judged := @Judged.valueOutOfRange tokens ⟨a, b, c, d⟩ before after value reads listed
        exact ⟨_, judged earlier outside⟩
    · exact ⟨_, .wrongSize readable size⟩
  · obtain ⟨before, token, after, listed, earlier, bad⟩ := exists_first readable
    exact ⟨_, .invalidValue listed earlier bad⟩

/-- A text is read as a hand exactly if its tokens are four values in range, and otherwise the first
complaint is made that there is a reason for: a token that is no value, the number of tokens, a value
out of range. -/
theorem parse_eq_iff (text : String) (result : Except HandError Hand) :
    parse text = result ↔ ∃ tokens, Tokens text.toList tokens ∧ Judged tokens result := by
  constructor
  · rintro rfl
    obtain ⟨result, judged⟩ := exists_judged (pieces text.toList)
    refine ⟨pieces text.toList, tokens_iff.mpr rfl, ?_⟩
    rw [parse, judged.computed]
    exact judged
  · rintro ⟨tokens, cut, judged⟩
    rw [parse, tokens_iff.mp cut, judged.computed]

end Hand

end FourCards
