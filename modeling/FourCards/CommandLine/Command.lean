/-
This file reads a command, its options and its words from the arguments of a command line.
-/

import FourCards.CommandLine.Argument
import FourCards.Text.Digits

namespace FourCards.CommandLine

inductive CommandName where
  | deal | verify | hint | solutions | play
deriving DecidableEq

namespace CommandName

def all : List CommandName := [deal, verify, hint, solutions, play]

def text : CommandName → String
  | deal => "deal"
  | verify => "verify"
  | hint => "hint"
  | solutions => "solutions"
  | play => "play"

def ofText? (text : String) : Option CommandName :=
  all.find? fun name => name.text = text

/-- The number of words that a command takes. -/
def words : CommandName → Nat
  | verify => 2
  | hint | solutions => 1
  | deal | play => 0

end CommandName

inductive Command where
  | deal (seed : Option UInt64)
  | verify (hand expression : String)
  | hint (hand : String)
  | solutions (hand : String)
  | play (seed : Option UInt64)
deriving DecidableEq

/-- Why no command is carried out. -/
inductive Stop where
  | help | version | misuse
deriving DecidableEq

/-- Options stand before the name of the command or after it. -/
inductive Level where
  | program
  | command (name : CommandName)
deriving DecidableEq

inductive OptionName where
  | logLevel | seed
deriving DecidableEq

/-- What an option asks for; some wait for a value in the next argument. -/
inductive Use where
  | unknown
  | stop (reason : Stop)
  | given (name : OptionName) (value : String)
  | awaited (name : OptionName)
deriving DecidableEq

def Use.ofValue (name : OptionName) : Option String → Use
  | some value => given name value
  | none => awaited name

namespace Level

def knowsSeed (level : Level) : Bool :=
  level = command .deal || level = command .play

def knowsVersion (level : Level) : Bool :=
  level = program

def longUse (level : Level) (name : String) (value : Option String) : Use :=
  if name = "log-level" then .ofValue .logLevel value
  else if name = "seed" ∧ level.knowsSeed then .ofValue .seed value
  else if name = "help" then .stop (if value.isNone then .help else .misuse)
  else if name = "version" ∧ level.knowsVersion then
    .stop (if value.isNone then .version else .misuse)
  else .unknown

/-- The first letter decides: what follows it is its value or is not looked at. -/
def shortUse (level : Level) : List Char → Use
  | ['l'] => .awaited .logLevel
  | 'l' :: '=' :: value => .given .logLevel (String.ofList value)
  | 'l' :: value => .given .logLevel (String.ofList value)
  | 'h' :: _ => .stop .help
  | 'V' :: _ => if level.knowsVersion then .stop .version else .unknown
  | _ => .unknown

def use (level : Level) : Argument → Use
  | .long name value => level.longUse name value
  | .short letters => level.shortUse letters
  | .plain | .ending => .unknown

/-- Whether a dash begins a word and no option: the expression to verify may begin with one,
unless all of it is made of options. -/
def takesAsWord (level : Level) (words : List String) (argument : Argument) : Bool :=
  level = command .verify && words.length = 1 &&
    match argument with
    | .long .. => level.use argument = .unknown
    | .short letters => letters.any fun letter => level.use (.short [letter]) = .unknown
    | .plain | .ending => false

/-- Whether one more word may follow. -/
def wantsWord (level : Level) (words : List String) : Bool :=
  match level with
  | program => false
  | command name => words.length < name.words

end Level

structure Options where
  logLevel : Option LogLevel
  seed : Option UInt64
deriving DecidableEq

namespace Options

def none : Options := ⟨Option.none, Option.none⟩

def largestSeed : Nat := UInt64.size - 1

/-- An option is given once, and only with a value that it can have. -/
def give (options : Options) : OptionName → String → Except Stop Options
  | .logLevel, value =>
      match options.logLevel, LogLevel.ofName? value with
      | .none, some level => .ok { options with logLevel := some level }
      | _, _ => .error .misuse
  | .seed, value =>
      match options.seed, Text.readNumber? largestSeed value.toList with
      | .none, some seed => .ok { options with seed := some (UInt64.ofNat seed) }
      | _, _ => .error .misuse

end Options

/-- Reads options and words. The options of the program end where its command begins. -/
def readArguments (level : Level) (options : Options) (words : List String) :
    List String → Except Stop (Options × List String)
  | [] => .ok (options, words)
  | argument :: rest =>
      match Argument.ofText argument with
      | .ending =>
          if level = .program then .error .misuse else .ok (options, words ++ rest)
      | form =>
          if form = .plain ∨ level.takesAsWord words form then
            if level = .program then .ok (options, argument :: rest)
            else if level.wantsWord words then
              readArguments level options (words ++ [argument]) rest
            else .error .misuse
          else
            match level.use form, rest with
            | .unknown, _ => .error .misuse
            | .stop reason, _ => .error reason
            | .given name value, rest =>
                match options.give name value with
                | .error reason => .error reason
                | .ok options => readArguments level options words rest
            | .awaited _, [] => .error .misuse
            | .awaited name, value :: rest =>
                match options.give name value with
                | .error reason => .error reason
                | .ok options => readArguments level options words rest

namespace Command

def ofWords (name : CommandName) (options : Options) (words : List String) :
    Except Stop Command :=
  match name, words with
  | .deal, [] => .ok (.deal options.seed)
  | .verify, [hand, expression] => .ok (.verify hand expression)
  | .hint, [hand] => .ok (.hint hand)
  | .solutions, [hand] => .ok (.solutions hand)
  | .play, [] => .ok (.play options.seed)
  | _, _ => .error .misuse

/-- Help is asked for by name too, for the program or for one of its commands. -/
def ofHelp (words : List String) : Stop :=
  match words with
  | [] => .help
  | [word] => if word = "help" ∨ (CommandName.ofText? word).isSome then .help else .misuse
  | _ => .misuse

def ofArguments (arguments : List String) : Except Stop Command := do
  let (_, words) ← readArguments .program .none [] arguments
  match words with
  | [] => .error .misuse
  | word :: rest =>
      match CommandName.ofText? word with
      | some name =>
          let (options, words) ← readArguments (.command name) .none [] rest
          ofWords name options words
      | none => .error (if word = "help" then ofHelp rest else .misuse)

end Command

end FourCards.CommandLine
