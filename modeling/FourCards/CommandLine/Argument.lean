/-
This file defines the forms that an argument of a command line can have.
-/

namespace FourCards.CommandLine

inductive Argument where
  | plain
  /-- The argument `--`, after which no argument is an option. -/
  | ending
  | long (name : String) (value : Option String)
  | short (letters : List Char)
deriving DecidableEq

/-- A single dash is plain, and a long option's value follows its first equals sign. -/
def Argument.ofText (text : String) : Argument :=
  match text.toList with
  | ['-', '-'] => .ending
  | '-' :: '-' :: characters =>
      let name := String.ofList (characters.takeWhile (· ≠ '='))
      match characters.dropWhile (· ≠ '=') with
      | [] => .long name none
      | _ :: value => .long name (some (String.ofList value))
  | '-' :: letter :: letters => .short (letter :: letters)
  | _ => .plain

/-- How much is told of what the program does. -/
inductive LogLevel where
  | error | warn | info | debug | trace
deriving DecidableEq

namespace LogLevel

def all : List LogLevel := [error, warn, info, debug, trace]

def name : LogLevel → String
  | error => "error"
  | warn => "warn"
  | info => "info"
  | debug => "debug"
  | trace => "trace"

def ofName? (name : String) : Option LogLevel :=
  all.find? fun level => level.name = name

end LogLevel

end FourCards.CommandLine
