/-
This file proves that what is written in a game is framed line by line: which lines are written in
answer to a line of input depends on what it asks for, and its characters never reach them.
-/

import FourCards.Proofs.Game.Play
import FourCards.Proofs.Grammar.Decimal
import FourCards.Proofs.Grammar.Rejection
import FourCards.Proofs.Search.Direct
import FourCards.Proofs.Text.Titles

namespace FourCards

open Text

/-- Names of ranks are plain. -/
theorem Rank.plain_name (rank : Rank) : Plain rank.name.toList := by
  cases rank <;> rfl

/-- Names of suits are plain. -/
theorem Suit.plain_name (suit : Suit) : Plain suit.name.toList := by
  cases suit <;> rfl

/-- Cards are written in plain text. -/
theorem Card.plain_text (card : Card) : Plain card.text.toList := by
  simp only [text, String.toList_append, plain_append]
  exact ⟨⟨card.rank.plain_name, rfl⟩, card.suit.plain_name⟩

/-- Numbers are written in plain text. -/
theorem plain_repr (value : Nat) : Plain value.repr.toList := by
  rw [Nat.toList_repr]
  exact plain_of_digits fun character inside =>
    .inl (Nat.isDigit_of_mem_toDigits (by decide) (by decide) inside)

/-- Lists of numbers are written in plain text. -/
theorem plain_listText (values : List Nat) : Plain (listText values).toList := by
  simp only [listText, String.toList_append, plain_append, String.toList_intercalate]
  refine ⟨⟨rfl, Plain.intercalate rfl ?_⟩, rfl⟩
  intro text inside
  obtain ⟨_, shown, rfl⟩ := List.mem_map.mp inside
  obtain ⟨value, -, rfl⟩ := List.mem_map.mp shown
  exact plain_repr value

/-- Digits and a point are plain. -/
theorem Numeral.Spelled.plain_write {numeral : Numeral} (spelled : numeral.Spelled) :
    Plain numeral.write :=
  plain_of_digits fun _ inside => Grammar.isDigit_or_point_of_mem_write spelled inside

/-- Floating-point numbers are written in plain text. -/
theorem Binary64.plain_text (value : Binary64) : Plain value.text.toList := by
  cases value with
  | nan => rfl
  | infinity negative => cases negative <;> rfl
  | finite negative steps representable =>
      have plain := (numeral_spelled steps).plain_write
      rw [← writeMagnitude_eq_write] at plain
      cases negative with
      | false => rwa [text, String.toList_ofList]
      | true =>
          rw [text, String.toList_ofList, plain_cons]
          exact ⟨rfl, plain⟩

theorem Operator.plain_symbol (operator : Operator) : Plain [operator.symbol] := by
  cases operator <;> rfl

namespace Expression

/-- An operand is written in plain text if its numerals are spelled. -/
theorem plain_writeOperand (expression : Expression)
    (spelled : ∀ numeral ∈ expression.literals, numeral.Spelled) : Plain expression.writeOperand := by
  induction expression with
  | literal numeral => exact (spelled numeral (List.mem_singleton_self _)).plain_write
  | apply operator left right leftPlain rightPlain =>
      obtain ⟨leftSpelled, rightSpelled⟩ := List.forall_mem_append.mp spelled
      have inside : Plain (left.writeOperand ++ operator.symbol :: right.writeOperand) :=
        plain_append.mpr ⟨leftPlain leftSpelled,
          plain_cons.mpr ⟨operator.plain_symbol, rightPlain rightSpelled⟩⟩
      exact plain_append.mpr ⟨plain_cons.mpr ⟨by decide, inside⟩, by decide⟩

/-- An expression is written in plain text if its numerals are spelled. -/
theorem plain_text (expression : Expression)
    (spelled : ∀ numeral ∈ expression.literals, numeral.Spelled) : Plain expression.text.toList := by
  rw [text, String.toList_ofList]
  cases expression with
  | literal numeral => exact (spelled numeral (List.mem_singleton_self _)).plain_write
  | apply operator left right =>
      obtain ⟨leftSpelled, rightSpelled⟩ := List.forall_mem_append.mp spelled
      rw [write, plain_append, plain_cons]
      exact ⟨left.plain_writeOperand leftSpelled, operator.plain_symbol,
        right.plain_writeOperand rightSpelled⟩

end Expression

/-- A hint is the text of a candidate, or says that there is none. -/
theorem Solver.plain_hint (target : Binary64) (hand : Hand) : Plain (hint target hand).text.toList := by
  rw [hint]
  cases found : solve target hand with
  | none => rfl
  | some text =>
      obtain ⟨candidate, -, rfl⟩ := List.mem_map.mp (List.mem_of_find?_eq_some found)
      exact candidate.expression.plain_text candidate.literals_spelled

/-- What follows a title: it has no line breaks, and no cards are shown in it. -/
structure FollowsTitle (rest : List Char) : Prop where
  noFeed : '\n' ∉ rest
  noReturn : '\r' ∉ rest
  noCards : occurrences "Cards: ".toList rest = 0

/-- Plain text may follow a title. -/
theorem FollowsTitle.of_plain {rest : List Char} (plain : Plain rest) : FollowsTitle rest := by
  obtain ⟨noColon, noFeed, noReturn⟩ := plain_iff.mp plain
  have colon : ':' ∈ "Cards: ".toList := by decide
  exact ⟨noFeed, noReturn, occurrences_eq_zero colon noColon⟩

/-- Cards are shown in a line as often as in its rest, and once more if its title ends in the word. -/
theorem occurrences_cards_titled {title rest : List Char} (titleColon : ':' ∉ title) :
    occurrences "Cards: ".toList (titled title rest) =
      occurrences "Cards: ".toList rest + if "Cards".toList <:+ title then 1 else 0 := by
  have nonempty : "Cards".toList ≠ [] := by decide
  exact occurrences_titled nonempty (by decide) (by decide) titleColon

/-- The words before the numbers of a hand end in a colon, but they do not show its cards. -/
theorem followsTitle_titled {title rest : List Char} (plainTitle : Plain title) (plain : Plain rest)
    (other : ¬ "Cards".toList <:+ title) : FollowsTitle (titled title rest) := by
  obtain ⟨titleColon, titleFeed, titleReturn⟩ := plain_iff.mp plainTitle
  obtain ⟨restFeed, restReturn, noCards⟩ := FollowsTitle.of_plain plain
  refine ⟨?_, ?_, ?_⟩
  · simp [titled, titleFeed, restFeed]
  · simp [titled, titleReturn, restReturn]
  · rw [occurrences_cards_titled titleColon, noCards, if_neg other]

/-- The numbers that an answer should have used are shown after words that are plain. -/
theorem Outcome.message_wrongNumbers (expected : List Nat) :
    (wrongNumbers expected).message.toList =
      titled "Your expression must use exactly these four numbers".toList (listText expected).toList := by
  have words : "Your expression must use exactly these four numbers: ".toList =
      titled "Your expression must use exactly these four numbers".toList [] := by simp [titled]
  calc (wrongNumbers expected).message.toList
      = "Your expression must use exactly these four numbers: ".toList ++ (listText expected).toList :=
        String.toList_append
    _ = _ := congrArg (· ++ (listText expected).toList) words
    _ = _ := (titled_append _ _).symm

/-- A value is told between words that are plain. -/
theorem plain_told {opening closing : String} (value : Binary64) (plainOpening : Plain opening.toList)
    (plainClosing : Plain closing.toList) : Plain (opening ++ value.text ++ closing).toList := by
  rw [String.toList_append, String.toList_append]
  exact plain_append.mpr ⟨plain_append.mpr ⟨plainOpening, value.plain_text⟩, plainClosing⟩

/-- Nothing in a message can be taken for the end of its line or for cards. -/
theorem Outcome.followsTitle_message (outcome : Outcome) : FollowsTitle outcome.message.toList := by
  have invalid : FollowsTitle "Invalid mathematical expression.".toList := .of_plain (by decide)
  cases outcome with
  | emptyInput =>
      show FollowsTitle "Please enter an arithmetic expression.".toList
      exact .of_plain (by decide)
  | syntaxInvalid cause => exact invalid
  | nonFiniteResult value => exact invalid
  | wrongNumbers expected =>
      rw [message_wrongNumbers]
      exact followsTitle_titled (by decide) (plain_listText expected) (by decide)
  | numericResult value target matchesTarget =>
      cases matchesTarget with
      | false => exact .of_plain (plain_told value (by decide) (by decide))
      | true => exact .of_plain (plain_told target (by decide) (by decide))

/-- The lines that are written in a game, by what they are about. -/
inductive LineKind where
  | cards | values | prompt | hint | verdict
deriving DecidableEq

namespace LineKind

/-- The titles that a line may have. -/
def titles : LineKind → List String
  | cards => ["Cards"]
  | values => ["Values"]
  | prompt => ["Enter an expression, or one of"]
  | hint => ["Hint"]
  | verdict => ["Success", "Incorrect", "Invalid Expression", "Error"]

/-- The line has such a title, and nothing comes after it that could be taken for another line. -/
def Heads (kind : LineKind) (line : String) : Prop :=
  ∃ title ∈ kind.titles, ∃ rest : String, line = title ++ ": " ++ rest ∧ FollowsTitle rest.toList

/-- The titles of all kinds of lines are plain. -/
theorem plain_of_mem_titles {kind : LineKind} {title : String} (inside : title ∈ kind.titles) :
    Plain title.toList := by
  revert title
  cases kind <;> decide

/-- Only the title of the cards ends in the word for them. -/
theorem suffix_title_iff {kind : LineKind} {title : String} (inside : title ∈ kind.titles) :
    "Cards".toList <:+ title.toList ↔ kind = cards := by
  revert title
  cases kind <;> decide

variable {kind : LineKind} {line : String}

/-- A line is not broken. -/
theorem Heads.not_mem (heads : kind.Heads line) : '\n' ∉ line.toList ∧ '\r' ∉ line.toList := by
  obtain ⟨title, inside, rest, rfl, follows⟩ := heads
  obtain ⟨-, titleFeed, titleReturn⟩ := plain_iff.mp (plain_of_mem_titles inside)
  simp [titleFeed, titleReturn, follows.noFeed, follows.noReturn]

/-- The line with the cards is the only one in which its title occurs. -/
theorem Heads.occurrences_cards (heads : kind.Heads line) :
    occurrences "Cards: ".toList line.toList = if kind = cards then 1 else 0 := by
  obtain ⟨title, inside, rest, rfl, follows⟩ := heads
  have titleColon := (plain_iff.mp (plain_of_mem_titles inside)).1
  have parts : (title ++ ": " ++ rest).toList = titled title.toList rest.toList := by
    simp [titled]
  rw [parts, occurrences_cards_titled titleColon, follows.noCards, Nat.zero_add,
    if_congr (suffix_title_iff inside) rfl rfl]

/-- The lines have these kinds, in turn. -/
abbrev HeadEach (kinds : List LineKind) (lines : List String) : Prop :=
  List.Forall₂ Heads kinds lines

variable {kinds : List LineKind} {lines : List String}

/-- None of the lines is broken. -/
theorem HeadEach.not_mem (head : HeadEach kinds lines) :
    ∀ line ∈ lines, '\n' ∉ line.toList ∧ '\r' ∉ line.toList := by
  induction head with
  | nil => simp
  | cons first _ others => exact List.forall_mem_cons.mpr ⟨first.not_mem, others⟩

/-- The cards are named as often as there are lines of that kind. -/
theorem HeadEach.sum_occurrences_cards (head : HeadEach kinds lines) :
    (lines.map fun line => occurrences "Cards: ".toList line.toList).sum = kinds.count cards := by
  induction head with
  | nil => rfl
  | cons first _ counted =>
      rw [List.map_cons, List.sum_cons, counted, first.occurrences_cards, List.count_cons, Nat.add_comm]
      simp only [beq_iff_eq]

end LineKind

/-- The output is the lines, each ended by a line feed. -/
theorem Transcript.toList_output {σ : Type} (transcript : Transcript σ) :
    transcript.output.toList =
      (transcript.lines.map String.toList).flatMap fun line => line ++ ['\n'] := by
  rw [output]
  induction transcript.lines with
  | nil => rfl
  | cons line lines joined =>
      rw [List.map_cons, String.join_cons, String.toList_append, joined]
      simp

/-- What is written in answer to a line, by what it says. -/
def lineKinds (line : List UInt8) : List LineKind :=
  if lineText line = some "new" then [.cards, .values]
  else if lineText line = some "hint" then [.hint]
  else [.verdict]

/-- The lines that are answered: those before the first one after which the game does not go on. -/
def answeredLines (input : List UInt8) : List (List UInt8) :=
  (inputLines input).takeWhile fun line => PlaysOn line

/-- A new hand is told in two lines, and all else in one. -/
theorem length_flatMap_lineKinds (lines : List (List UInt8)) :
    (lines.flatMap lineKinds).length =
      2 * (lines.countP fun line => lineText line = some "new") +
        (lines.countP fun line => lineText line = some "hint") +
        lines.countP fun line => lineText line ≠ some "new" ∧ lineText line ≠ some "hint" := by
  induction lines with
  | nil => rfl
  | cons line lines counted =>
      rw [List.flatMap_cons, List.length_append, counted, lineKinds]
      by_cases new : lineText line = some "new"
      · simp [new]
        omega
      · by_cases hint : lineText line = some "hint"
        · simp [hint]
          omega
        · simp [new, hint]
          omega

/-- Each line that asks for a new hand is answered with one line of cards. -/
theorem count_cards_flatMap_lineKinds (lines : List (List UInt8)) :
    (lines.flatMap lineKinds).count .cards = lines.countP fun line => lineText line = some "new" := by
  induction lines with
  | nil => rfl
  | cons line lines counted =>
      rw [List.flatMap_cons, List.count_append, counted, List.countP_cons, Nat.add_comm, lineKinds]
      by_cases new : lineText line = some "new"
      · simp [new]
      · by_cases hint : lineText line = some "hint"
        · simp [hint]
        · simp [new, hint]

/-- What is written in answer to a move. -/
def Move.kinds : Move → List LineKind
  | quit => []
  | hint => [.hint]
  | newHand => [.cards, .values]
  | answer _ => [.verdict]

/-- The game goes on after a line with any move but the one that ends it. -/
theorem playsOn_iff {line : List UInt8} :
    PlaysOn line ↔ ∃ move, lineMove line = some move ∧ move ≠ .quit := by
  rw [PlaysOn, Ne, ← lineMove_eq_none_iff, ← not_or, ← lineMove_eq_quit_iff]
  cases lineMove line <;> simp

/-- A line is answered by the lines for its move. -/
theorem lineKinds_eq {line : List UInt8} {move : Move} (asked : lineMove line = some move)
    (goesOn : move ≠ .quit) : lineKinds line = move.kinds := by
  simp only [lineKinds, ← lineMove_eq_newHand_iff, ← lineMove_eq_hint_iff, asked, Option.some.injEq]
  cases move with
  | quit => exact absurd rfl goesOn
  | hint => simp [Move.kinds]
  | newHand => simp [Move.kinds]
  | answer text => simp [Move.kinds]

/-- The title of a verdict is one of four. -/
theorem Outcome.heads_line (outcome : Outcome) : LineKind.verdict.Heads outcome.line := by
  refine ⟨outcome.title, ?_, outcome.message, rfl, outcome.followsTitle_message⟩
  cases outcome with
  | numericResult value target matchesTarget => cases matchesTarget <;> simp [LineKind.titles, title]
  | _ => simp [LineKind.titles, title]

namespace Session

variable {σ : Type}

/-- The cards are told in two lines. -/
theorem head_cardLines (session : Session σ) :
    LineKind.HeadEach [.cards, .values] session.cardLines := by
  have plainCards : Plain (", ".intercalate (session.cards.toList.map Card.text)).toList := by
    rw [String.toList_intercalate]
    refine Plain.intercalate rfl ?_
    intro text inside
    obtain ⟨_, shown, rfl⟩ := List.mem_map.mp inside
    obtain ⟨card, -, rfl⟩ := List.mem_map.mp shown
    exact card.plain_text
  have cards : LineKind.cards.Heads ("Cards: " ++ ", ".intercalate (session.cards.toList.map Card.text)) :=
    ⟨"Cards", List.mem_singleton_self _, _, congrArg (· ++ _) rfl, .of_plain plainCards⟩
  have values : LineKind.values.Heads ("Values: " ++ session.hand.text) :=
    ⟨"Values", List.mem_singleton_self _, _, congrArg (· ++ _) rfl, .of_plain (plain_listText _)⟩
  exact .cons cards (.cons values .nil)

/-- A game opens with the cards and a prompt. -/
theorem head_openingLines (session : Session σ) :
    LineKind.HeadEach [.cards, .values, .prompt] session.openingLines := by
  have prompt : LineKind.prompt.Heads "Enter an expression, or one of: hint, new, quit" :=
    ⟨_, List.mem_singleton_self _, "hint, new, quit", rfl, .of_plain (by decide)⟩
  exact List.rel_append session.head_cardLines (.cons prompt .nil)

variable [WordSource σ]

/-- No other move ends the game. -/
theorem move_eq_none_iff {session : Session σ} {move : Move} :
    session.move move = none ↔ move = .quit := by
  cases move <;> simp [Session.move]

/-- One move writes the lines that it is meant to be answered with. -/
theorem head_move {session next : Session σ} {move : Move} {written : List String}
    (played : session.move move = some (written, next)) : LineKind.HeadEach move.kinds written := by
  cases move with
  | quit => cases played
  | hint =>
      cases played
      have hint : LineKind.hint.Heads ("Hint: " ++ session.hint.text) :=
        ⟨"Hint", List.mem_singleton_self _, _, congrArg (· ++ _) rfl,
          .of_plain (Solver.plain_hint _ _)⟩
      exact .cons hint .nil
  | newHand =>
      cases played
      exact session.newHand.head_cardLines
  | answer text =>
      cases played
      exact .cons (session.verify text).heads_line .nil

/-- So does a run of them. The induction is on the lines of input, in any game. -/
theorem head_playLines (session : Session σ) (lines : List (List UInt8)) :
    LineKind.HeadEach ((lines.takeWhile fun line => PlaysOn line).flatMap lineKinds)
      (session.playLines lines).lines := by
  induction lines generalizing session with
  | nil => exact .nil
  | cons line lines headed =>
      by_cases plays : PlaysOn line
      · obtain ⟨move, asked, goesOn⟩ := playsOn_iff.mp plays
        have answers : session.move move ≠ none := mt move_eq_none_iff.mp goesOn
        obtain ⟨⟨written, next⟩, played⟩ := Option.ne_none_iff_exists'.mp answers
        rw [List.takeWhile_cons_of_pos (by simpa using plays), List.flatMap_cons, playLines_cons, asked,
          lineKinds_eq asked goesOn]
        simp only [played]
        exact List.rel_append (head_move played) (headed next)
      · rw [List.takeWhile_cons_of_neg (by simpa using plays), playLines_cons]
        cases asked : lineMove line with
        | none => exact .nil
        | some move =>
            have quits : move = .quit := by
              by_contra goesOn
              exact plays (playsOn_iff.mpr ⟨move, asked, goesOn⟩)
            simp only [move_eq_none_iff.mpr quits]
            exact .nil

/-- What is written in a game is made of lines, each ended by a line feed, and no line has a line feed
or a carriage return in it. The lines are the opening ones and then, for each line of input that is
answered, the one or two that have the titles for what it says. How many there are and how often cards
are shown is settled by this, so nothing in the input can add to it or pass for it. -/
theorem output_framed (session : Session σ) (input : List UInt8) :
    let transcript := session.play input
    let answered := answeredLines input
    (∃ answers, transcript.lines = session.openingLines ++ answers ∧
      LineKind.HeadEach [.cards, .values, .prompt] session.openingLines ∧
      LineKind.HeadEach (answered.flatMap lineKinds) answers) ∧
    (∀ line ∈ transcript.lines, '\n' ∉ line.toList ∧ '\r' ∉ line.toList) ∧
    transcript.output.toList.splitOn '\n' = transcript.lines.map String.toList ++ [[]] ∧
    transcript.lines.length =
      3 + 2 * (answered.countP fun line => lineText line = some "new") +
        (answered.countP fun line => lineText line = some "hint") +
        (answered.countP fun line => lineText line ≠ some "new" ∧ lineText line ≠ some "hint") ∧
    occurrences "Cards: ".toList transcript.output.toList =
      1 + answered.countP fun line => lineText line = some "new" := by
  intro transcript answered
  have opening := session.head_openingLines
  have answers := session.head_playLines (inputLines input)
  have head : LineKind.HeadEach ([.cards, .values, .prompt] ++ answered.flatMap lineKinds) transcript.lines :=
    List.rel_append opening answers
  have oneLine := head.not_mem
  have feeds : ∀ line ∈ transcript.lines.map String.toList, '\n' ∉ line :=
    List.forall_mem_map.mpr fun line inside => (oneLine line inside).1
  have written := transcript.toList_output
  refine ⟨⟨_, rfl, opening, answers⟩, oneLine, ?_, ?_, ?_⟩
  · rw [written, splitOn_lines feeds]
  · rw [← head.length_eq, List.length_append, length_flatMap_lineKinds]
    simp only [List.length_cons, List.length_nil]
    omega
  · rw [written, occurrences_lines (by decide) (by decide), List.map_map, Function.comp_def,
      head.sum_occurrences_cards, List.count_append, count_cards_flatMap_lineKinds]
    rfl

end Session

end FourCards
