/-
This file plays a game line by line: what a line asks for, what is written in answer, and where
the game ends.
-/

import FourCards.Game.Session
import FourCards.Text.Whitespace

namespace FourCards

/-- What a line of input asks for. -/
inductive Move where
  | quit
  | hint
  | newHand
  | answer (text : String)
deriving DecidableEq

/-- Whitespace around a word does not matter; what is no word of command is an answer. -/
def Move.ofLine (line : String) : Move :=
  let text := String.ofList (Text.trim line.toList)
  if text = "quit" ∨ text = "exit" then .quit
  else if text = "hint" then .hint
  else if text = "new" then .newHand
  else .answer text

/-- Input is cut at line feeds; nothing after the last of them is no line. -/
def inputLines (input : List UInt8) : List (List UInt8) :=
  let pieces := input.splitOn 10
  if pieces.getLast? = some [] then pieces.dropLast else pieces

def decodeLine (line : List UInt8) : Option String :=
  String.fromUTF8? ⟨line.toArray⟩

/-- What was written in a game, the state it was left in, and whether all lines that were
reached could be decoded. -/
structure Transcript (σ : Type) where
  lines : List String
  session : Session σ
  decoded : Bool

namespace Transcript

variable {σ : Type}

def after (lines : List String) (transcript : Transcript σ) : Transcript σ :=
  { transcript with lines := lines ++ transcript.lines }

def output (transcript : Transcript σ) : String :=
  String.join (transcript.lines.map fun line => line ++ "\n")

end Transcript

namespace Session

variable {σ : Type}

def cardLines (session : Session σ) : List String :=
  ["Cards: " ++ ", ".intercalate (session.cards.toList.map Card.text),
    "Values: " ++ session.hand.text]

def openingLines (session : Session σ) : List String :=
  session.cardLines ++ ["Enter an expression, or one of: hint, new, quit"]

/-- The lines written in answer to a move, and the game after it; quitting ends it. -/
def move [WordSource σ] (session : Session σ) : Move → Option (List String × Session σ)
  | .quit => none
  | .hint => some (["Hint: " ++ session.hint.text], session)
  | .newHand =>
      let session := session.newHand
      some (session.cardLines, session)
  | .answer text => some ([(session.verify text).line], session)

def playLines [WordSource σ] (session : Session σ) : List (List UInt8) → Transcript σ
  | [] => ⟨[], session, true⟩
  | line :: lines =>
      match decodeLine line with
      | none => ⟨[], session, false⟩
      | some text =>
          match session.move (Move.ofLine text) with
          | none => ⟨[], session, true⟩
          | some (written, session) => (session.playLines lines).after written

def play [WordSource σ] (session : Session σ) (input : List UInt8) : Transcript σ :=
  (session.playLines (inputLines input)).after session.openingLines

end Session

/-- The report on input that cannot be decoded. -/
def undecodableInput : String :=
  "Failed to read input: stream did not contain valid UTF-8"

end FourCards
