/-
This file carries commands out: what they print, what they report and how they exit.
-/

import FourCards.CommandLine.Command
import FourCards.Game.Play

namespace FourCards.CommandLine

/-- A hand on the command line that cannot be read. -/
structure InvalidHand where
  text : String
  cause : HandError
deriving DecidableEq

namespace InvalidHand

def context (error : InvalidHand) : String :=
  "Invalid hand '" ++ error.text ++ "'"

def message (error : InvalidHand) : String :=
  error.context ++ ": " ++ error.cause.message

end InvalidHand

def readHand (text : String) : Except InvalidHand Hand :=
  (Hand.parse text).mapError fun cause => ⟨text, cause⟩

/-- What is printed, what is reported beside it, and the exit code. -/
structure Response where
  exit : UInt32
  output : String
  report : String
deriving DecidableEq

namespace Response

def ofLines (lines : List String) : Response :=
  ⟨0, String.join (lines.map fun line => line ++ "\n"), ""⟩

def failure (output message : String) : Response :=
  ⟨1, output, "Error: " ++ message ++ "\n"⟩

def usage : String :=
  "Usage: twentyfour [-l LEVEL] COMMAND\n\n" ++
  "Combine four card values with + - * / and parentheses to make 24\n\n" ++
  "Commands:\n" ++
  "  deal [--seed N]         Deal four cards from a shuffled deck\n" ++
  "  verify HAND EXPRESSION  Check an expression against a hand\n" ++
  "  hint HAND               Show one expression that makes 24\n" ++
  "  solutions HAND          List every expression the solver finds\n" ++
  "  play [--seed N]         Play interactively\n\n" ++
  "Options:\n" ++
  "  -l, --log-level LEVEL   One of error, warn, info, debug, trace\n" ++
  "  -h, --help              Print help\n" ++
  "  -V, --version           Print version\n"

def ofStop : Stop → Response
  | .help => ⟨0, usage, ""⟩
  | .version => ofLines ["twentyfour 0.1.0"]
  | .misuse => ⟨2, "", usage⟩

end Response

/-- A command is over at once, or it is a game to be played on the input. -/
inductive Action where
  | finish (response : Response)
  | play (session : Session Source)

/-- Without a seed the words come from `entropy`. -/
def sourceOf (entropy : UInt64) (seed : Option UInt64) : Source :=
  Source.ofSeed (seed.getD entropy)

def dealLines (cards : Four Card) : List String :=
  cards.toList.map (fun card => card.text ++ " (" ++ card.value.repr ++ ")") ++
    ["Values: " ++ (Hand.ofCards cards).text]

def solutionLines : List String → List String
  | [] => [Hint.noSolution.text]
  | expressions => expressions

/-- What a command that is given a hand prints. -/
def withHand (text : String) (lines : Hand → List String) : Response :=
  match readHand text with
  | .ok hand => .ofLines (lines hand)
  | .error error => .failure "" error.message

namespace Command

def action (entropy : UInt64) : Command → Action
  | deal seed => .finish (.ofLines (dealLines (Deck.deal (sourceOf entropy seed)).1))
  | verify hand expression =>
      .finish (withHand hand fun hand => [(hand.verify .standard expression).line])
  | hint hand =>
      .finish (withHand hand fun hand => [(Solver.hint Settings.standard.target hand).text])
  | solutions hand =>
      .finish (withHand hand fun hand =>
        solutionLines (Solver.solutions Settings.standard.target hand))
  | play seed => .play (Session.start .standard (sourceOf entropy seed))

end Command

def action (entropy : UInt64) (arguments : List String) : Action :=
  match Command.ofArguments arguments with
  | .ok command => command.action entropy
  | .error stop => .finish (.ofStop stop)

/-- A game that meets undecodable input keeps what it printed and fails. -/
def Response.ofTranscript {σ : Type} (transcript : Transcript σ) : Response :=
  if transcript.decoded then ⟨0, transcript.output, ""⟩
  else .failure transcript.output undecodableInput

def Action.response (input : List UInt8) : Action → Response
  | finish response => response
  | play session => .ofTranscript (session.play input)

def run (entropy : UInt64) (arguments : List String) (input : List UInt8) : Response :=
  (action entropy arguments).response input

end FourCards.CommandLine
