/-
This file proves how games that are played line by line compose: what is played on two inputs, what
the words and bytes do that end a game, and which differences between inputs make none to the game.
-/

import FourCards.Proofs.Game.Lines
import FourCards.Proofs.Game.Session

namespace FourCards

namespace Transcript

variable {σ : Type}

theorem after_after (transcript : Transcript σ) (earlier later : List String) :
    (transcript.after later).after earlier = transcript.after (earlier ++ later) := by
  simp only [after, List.append_assoc]

/-- Lines that were written earlier come first in the output. -/
theorem output_after (transcript : Transcript σ) (lines : List String) :
    (transcript.after lines).output =
      String.join (lines.map fun line => line ++ "\n") ++ transcript.output := by
  simp only [output, after, List.map_append, String.join_append]

/-- The transcript without the three lines that every game is opened with. -/
def afterOpening (transcript : Transcript σ) : Transcript σ :=
  { transcript with lines := transcript.lines.drop 3 }

end Transcript

/-- The game goes on after a line that can be decoded and does not say that it is over. -/
def PlaysOn (line : List UInt8) : Prop :=
  lineText line ≠ none ∧ lineText line ≠ some "quit" ∧ lineText line ≠ some "exit"

instance (line : List UInt8) : Decidable (PlaysOn line) :=
  inferInstanceAs (Decidable (_ ∧ _ ∧ _))

namespace Session

variable {σ : Type} [WordSource σ]

/-- A line is answered by its move, and the game goes on with the lines after it. -/
theorem playLines_cons (session : Session σ) (line : List UInt8) (lines : List (List UInt8)) :
    session.playLines (line :: lines) =
      match lineMove line with
      | none => ⟨[], session, false⟩
      | some move =>
          match session.move move with
          | none => ⟨[], session, true⟩
          | some (written, next) => (next.playLines lines).after written := by
  rw [playLines, lineMove]
  cases decodeLine line <;> rfl

/-- Undecodable bytes end the game, and so does a word for it. -/
theorem playLines_of_undecodable (session : Session σ) {line : List UInt8}
    (undecodable : lineText line = none) (lines : List (List UInt8)) :
    session.playLines (line :: lines) = ⟨[], session, false⟩ := by
  rw [playLines_cons, lineMove_eq_none_iff.mpr undecodable]

/-- The lines after a word that ends the game are not read. -/
theorem playLines_of_quit (session : Session σ) {line : List UInt8}
    (quits : lineText line = some "quit" ∨ lineText line = some "exit") (lines : List (List UInt8)) :
    session.playLines (line :: lines) = ⟨[], session, true⟩ := by
  rw [playLines_cons, lineMove_eq_quit_iff.mpr quits]
  rfl

/-- Every other line is answered, and deals a new hand if it says so. -/
theorem exists_playLines_of_playsOn (session : Session σ) {line : List UInt8}
    (plays : PlaysOn line) :
    ∃ written, ∀ lines, session.playLines (line :: lines) =
      ((if lineText line = some "new" then session.newHand else session).playLines lines).after
        written := by
  cases asked : lineMove line with
  | none => exact absurd (lineMove_eq_none_iff.mp asked) plays.1
  | some move =>
      simp only [playLines_cons, asked, ← lineMove_eq_newHand_iff]
      cases move with
      | quit => exact absurd (lineMove_eq_quit_iff.mp asked) (not_or.mpr plays.2)
      | hint => exact ⟨_, fun _ => rfl⟩
      | newHand => exact ⟨_, fun _ => rfl⟩
      | answer text => exact ⟨_, fun _ => rfl⟩

/-- Lines after which the game goes on are answered as if nothing followed, and what follows them is
played in the game that they leave. The induction is on these lines, in any game. -/
theorem playLines_append (session : Session σ) {earlier : List (List UInt8)}
    (plays : ∀ line ∈ earlier, PlaysOn line) (later : List (List UInt8)) :
    session.playLines (earlier ++ later) =
      ((session.playLines earlier).session.playLines later).after
        (session.playLines earlier).lines := by
  induction earlier generalizing session with
  | nil => rfl
  | cons line earlier composed =>
      obtain ⟨written, answered⟩ := session.exists_playLines_of_playsOn (plays line (by simp))
      rw [List.cons_append, answered, answered,
        composed _ fun other inside => plays other (List.mem_cons_of_mem line inside),
        Transcript.after_after]
      rfl

/-- These lines are all read, and they deal as many new hands as ask for one. -/
theorem playLines_playsOn (session : Session σ) {lines : List (List UInt8)}
    (plays : ∀ line ∈ lines, PlaysOn line) :
    (session.playLines lines).decoded = true ∧
      (session.playLines lines).session =
        newHand^[lines.countP fun line => lineText line = some "new"] session := by
  induction lines generalizing session with
  | nil => exact ⟨rfl, rfl⟩
  | cons line lines continued =>
      obtain ⟨written, answered⟩ := session.exists_playLines_of_playsOn (plays line (by simp))
      rw [answered]
      have later := continued (if lineText line = some "new" then session.newHand else session)
        fun other inside => plays other (List.mem_cons_of_mem line inside)
      refine ⟨later.1, later.2.trans ?_⟩
      rw [List.countP_cons]
      split <;> rename_i asked
      · simp [asked]
      · simp [asked]

/-- What is played after some lines depends on the game they leave alone, if they leave one. -/
theorem playLines_append_congr {later other : List (List UInt8)}
    (same : ∀ session : Session σ, session.playLines later = session.playLines other)
    (session : Session σ) (earlier : List (List UInt8)) :
    session.playLines (earlier ++ later) = session.playLines (earlier ++ other) := by
  induction earlier generalizing session with
  | nil => exact same session
  | cons line earlier continued =>
      simp only [List.cons_append, playLines_cons, continued]

/-- Lines that say the same are played alike. -/
theorem playLines_congr (session : Session σ) {lines others : List (List UInt8)}
    (same : lines.map lineText = others.map lineText) :
    session.playLines lines = session.playLines others := by
  induction lines generalizing session others with
  | nil => rw [List.map_eq_nil_iff.mp same.symm]
  | cons line lines continued =>
      obtain ⟨other, rest, rfl, said, later⟩ := List.map_eq_cons_iff.mp same.symm
      simp only [playLines_cons, lineMove_congr said, fun next => continued next later.symm]

theorem afterOpening_play (session : Session σ) (input : List UInt8) :
    (session.play input).afterOpening = session.playLines (inputLines input) := rfl

/-- Lines that are ended are played before what follows them. -/
theorem play_terminated_append (session : Session σ) {earlier : List (List UInt8)}
    (whole : ∀ line ∈ earlier, 10 ∉ line) (input : List UInt8) :
    session.play (terminated earlier ++ input) =
      (session.playLines (earlier ++ inputLines input)).after session.openingLines := by
  rw [play, inputLines_terminated_append whole]

/-- Lines that are ended are played in turn. -/
theorem play_terminated (session : Session σ) {earlier : List (List UInt8)}
    (whole : ∀ line ∈ earlier, 10 ∉ line) :
    session.play (terminated earlier) = (session.playLines earlier).after session.openingLines := by
  rw [play, inputLines_terminated whole]

/-- A game on two inputs is the game on the first, and then the game on the second in the state that
the first leaves, without its opening. -/
theorem play_append (session : Session σ) {earlier : List (List UInt8)}
    (whole : ∀ line ∈ earlier, 10 ∉ line) (plays : ∀ line ∈ earlier, PlaysOn line)
    (input : List UInt8) :
    session.play (terminated earlier ++ input) =
      ((session.play (terminated earlier)).session.play input).afterOpening.after
        (session.play (terminated earlier)).lines := by
  rw [session.play_terminated_append whole, session.play_terminated whole,
    session.playLines_append plays, Transcript.after_after, afterOpening_play]
  rfl

/-- Nothing after a word that ends the game is looked at. -/
theorem play_of_quit (session : Session σ) {earlier : List (List UInt8)}
    (whole : ∀ line ∈ earlier, 10 ∉ line) {line tail : List UInt8} (lineWhole : 10 ∉ line)
    (quits : lineText line = some "quit" ∨ lineText line = some "exit") (ends : EndsLine tail) :
    session.play (terminated earlier ++ (line ++ tail)) =
      session.play (terminated earlier ++ line) := by
  have nonempty : line ≠ [] := ne_nil_of_lineText (by rcases quits with said | said <;> simp [said])
  obtain ⟨later, cut⟩ := exists_inputLines lineWhole nonempty ends
  rw [session.play_terminated_append whole, session.play_terminated_append whole, cut,
    inputLines_singleton lineWhole nonempty]
  refine congrArg (Transcript.after session.openingLines) (playLines_append_congr ?_ session earlier)
  intro current
  rw [current.playLines_of_quit quits, current.playLines_of_quit quits]

/-- A line that cannot be decoded ends the game too, but not well. -/
theorem play_of_undecodable (session : Session σ) {earlier : List (List UInt8)}
    (whole : ∀ line ∈ earlier, 10 ∉ line) (plays : ∀ line ∈ earlier, PlaysOn line)
    {line tail : List UInt8} (lineWhole : 10 ∉ line) (undecodable : lineText line = none)
    (ends : EndsLine tail) :
    session.play (terminated earlier ++ (line ++ tail)) =
      { session.play (terminated earlier) with decoded := false } := by
  have nonempty : line ≠ [] := ne_nil_of_lineText (by simp [undecodable])
  obtain ⟨later, cut⟩ := exists_inputLines lineWhole nonempty ends
  rw [session.play_terminated_append whole, session.play_terminated whole, cut,
    session.playLines_append plays, playLines_of_undecodable _ undecodable]
  simp only [Transcript.after, List.append_nil]

/-- Input is played by what its lines say. -/
theorem play_congr (session : Session σ) {input other : List UInt8}
    (same : (inputLines input).map lineText = (inputLines other).map lineText) :
    session.play input = session.play other := by
  rw [play, play, session.playLines_congr same]

/-- A game can be played in parts: on complete lines first, none of which ends it, and then on any
bytes in the state it is left in; the second part prints what it would print by itself without the
three opening lines, and it leaves the game and decides on success.

A word that ends the game makes what follows it irrelevant. A line that cannot be decoded fails the
game; what was printed before it stays, and so do the hands dealt before it.

What a line says is all that matters: not whether a carriage return comes before its line feed, not
the whitespace around it, and not, if it is not empty, whether the last line is ended. -/
theorem play_in_parts (session : Session σ) :
    (∀ (earlier : List (List UInt8)) (input : List UInt8),
      (∀ line ∈ earlier, 10 ∉ line ∧ PlaysOn line) →
      let first := session.play (terminated earlier)
      let second := first.session.play input
      let whole := session.play (terminated earlier ++ input)
      second = second.afterOpening.after first.session.openingLines ∧
        first.session.openingLines.length = 3 ∧
        whole = second.afterOpening.after first.lines ∧
        whole.output = first.output ++ second.afterOpening.output ∧
        whole.session = second.session ∧ whole.decoded = second.decoded) ∧
    (∀ (earlier : List (List UInt8)) (line tail : List UInt8), (∀ before ∈ earlier, 10 ∉ before) →
      10 ∉ line → lineText line = some "quit" ∨ lineText line = some "exit" → EndsLine tail →
      session.play (terminated earlier ++ (line ++ tail)) =
        session.play (terminated earlier ++ line)) ∧
    (∀ (earlier : List (List UInt8)) (line tail : List UInt8),
      (∀ before ∈ earlier, 10 ∉ before ∧ PlaysOn before) →
      10 ∉ line → lineText line = none → EndsLine tail →
      session.play (terminated earlier ++ (line ++ tail)) =
          { session.play (terminated earlier) with decoded := false } ∧
        (session.play (terminated earlier)).session =
          newHand^[earlier.countP fun before => lineText before = some "new"] session) ∧
    (∀ input other : List UInt8,
      (inputLines input).map lineText = (inputLines other).map lineText →
      session.play input = session.play other) ∧
    (∀ (line : List UInt8) (text : String), lineText line = some text →
      lineText (line ++ [13]) = some text) ∧
    (∀ before text after : List Char,
      (∀ character ∈ before, Text.isWhitespace character = true) →
      (∀ character ∈ after, Text.isWhitespace character = true) →
      lineText (lineBytes (String.ofList (before ++ text ++ after))) =
        lineText (lineBytes (String.ofList text))) ∧
    ∀ (earlier : List (List UInt8)) (line : List UInt8), (∀ before ∈ earlier, 10 ∉ before) →
      10 ∉ line → line ≠ [] →
      inputLines (terminated earlier ++ line) = inputLines (terminated (earlier ++ [line])) := by
  refine ⟨?_, ?_, ?_, fun input other same => session.play_congr same,
    fun line text said => lineText_carriageReturn said,
    fun before text after blankBefore blankAfter => lineText_padded text blankBefore blankAfter, ?_⟩
  · intro earlier input goesOn first second whole
    have composed : whole = second.afterOpening.after first.lines :=
      session.play_append (fun line inside => (goesOn line inside).1)
        (fun line inside => (goesOn line inside).2) input
    refine ⟨rfl, rfl, composed, ?_, ?_, ?_⟩
    · rw [composed, Transcript.output_after]
      rfl
    · rw [composed]
      rfl
    · rw [composed]
      rfl
  · intro earlier line tail whole lineWhole quits ends
    exact session.play_of_quit whole lineWhole quits ends
  · intro earlier line tail goesOn lineWhole undecodable ends
    have whole := fun before inside => (goesOn before inside).1
    have plays := fun before inside => (goesOn before inside).2
    refine ⟨session.play_of_undecodable whole plays lineWhole undecodable ends, ?_⟩
    rw [session.play_terminated whole]
    exact (session.playLines_playsOn plays).2
  · intro earlier line whole lineWhole nonempty
    have allWhole : ∀ other ∈ earlier ++ [line], 10 ∉ other := by
      intro other inside
      rcases List.mem_append.mp inside with inside | inside
      · exact whole other inside
      · rwa [List.mem_singleton.mp inside]
    rw [inputLines_terminated allWhole, inputLines_terminated_append whole,
      inputLines_singleton lineWhole nonempty]

/-- A new hand and a wrong answer, followed by a hint, by the end of the game, or by a byte that
cannot be decoded. -/
theorem play_in_parts_newHand :
    let session := start Settings.standard (Source.congruential 35)
    let earlier := [lineBytes " new\r", lineBytes "1+"]
    (session.play (terminated earlier ++ lineBytes "hint\nquit\nnew")).output =
        (session.play (terminated earlier)).output ++
          ((session.play (terminated earlier)).session.play
            (lineBytes "hint\nquit\nnew")).afterOpening.output ∧
      session.play (terminated earlier ++ (lineBytes "exit" ++ [10, 255])) =
        session.play (terminated earlier ++ lineBytes "exit") ∧
      session.play (terminated earlier ++ ([104, 255] ++ [10, 110])) =
        { session.play (terminated earlier) with decoded := false } ∧
      (session.play (terminated earlier)).session = session.newHand ∧
      session.play (terminated earlier) = session.play (lineBytes "new\n\t1+") ∧
      lineText (lineBytes "new\t" ++ [13]) = some "new" ∧
      lineText (lineBytes "\u2003new\t") = lineText (lineBytes "new") ∧
      inputLines (terminated earlier ++ lineBytes "hint") =
        inputLines (terminated (earlier ++ [lineBytes "hint"])) := by
  intro session earlier
  obtain ⟨parts, quits, undecodable, alike, returned, padded, ended⟩ := play_in_parts session
  have goesOn : ∀ line ∈ earlier, 10 ∉ line ∧ PlaysOn line := by decide +kernel
  have failed := undecodable earlier [104, 255] [10, 110] goesOn (by decide) (by decide +kernel)
    (by simp [EndsLine])
  refine ⟨(parts earlier _ goesOn).2.2.2.1, ?_, failed.1, failed.2, ?_, ?_, ?_, ?_⟩
  · exact quits earlier (lineBytes "exit") [10, 255] (fun line inside => (goesOn line inside).1)
      (by decide) (by decide +kernel) (by simp [EndsLine])
  · exact alike _ _ (by decide +kernel)
  · exact returned (lineBytes "new\t") "new" (by decide +kernel)
  · exact padded ['\u2003'] "new".toList ['\t'] (by simp; decide) (by simp; decide)
  · exact ended earlier (lineBytes "hint") (fun line inside => (goesOn line inside).1) (by decide)
      (by decide)

end Session

end FourCards
