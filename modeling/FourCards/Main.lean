/-
This file is the program: it passes the arguments and the input on and prints the response.
-/

import FourCards.CommandLine.Run

namespace FourCards.Program

/-- Reads up to and without the next line feed; nothing is left to read at the end. -/
partial def readLine (stdin : IO.FS.Stream) (line : Array UInt8) : IO (Array UInt8 × Bool) := do
  let byte ← stdin.read 1
  match byte.toList with
  | [] => pure (line, false)
  | byte :: _ => if byte = 10 then pure (line, true) else readLine stdin (line.push byte)

def printLines (stdout : IO.FS.Stream) (lines : List String) : IO Unit := do
  for line in lines do
    stdout.putStr (line ++ "\n")
  stdout.flush

/-- Answers each line as soon as it is read; the result tells whether all could be decoded. -/
partial def playOn (stdin stdout : IO.FS.Stream) (session : Session Source) : IO Bool := do
  let (line, complete) ← readLine stdin #[]
  if line.isEmpty && !complete then pure true
  else
    match decodeLine line.toList with
    | none => pure false
    | some text =>
        match session.move (Move.ofLine text) with
        | none => pure true
        | some (written, session) =>
            printLines stdout written
            playOn stdin stdout session

def execute (arguments : List String) : IO UInt32 := do
  let stdin ← IO.getStdin
  let stdout ← IO.getStdout
  let stderr ← IO.getStderr
  let entropy := (← IO.getRandomBytes 8).foldl (fun word byte => word * 256 + byte.toUInt64) 0
  let response ← match CommandLine.action entropy arguments with
    | .finish response => pure response
    | .play session => do
        printLines stdout session.openingLines
        if ← playOn stdin stdout session then pure (CommandLine.Response.ofLines [])
        else pure (CommandLine.Response.failure "" undecodableInput)
  stdout.putStr response.output
  stderr.putStr response.report
  pure response.exit

end FourCards.Program

def main (arguments : List String) : IO UInt32 :=
  FourCards.Program.execute arguments
