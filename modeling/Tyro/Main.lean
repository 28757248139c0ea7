import Tyro.CommandLine
import Tyro.Prompt

/-!
# The program

Runs a program text from a file or the standard input, or, with `--interactive` as its only
argument, an interactive session. Everything is decided by `CommandLine` and `Prompt`; this module
only reads and writes.
-/

namespace Tyro

/-- How deep evaluation may go. -/
def evaluationDepth : Nat := 1000000

/-- All that can be read from a stream, as text if it is text. -/
def readText (stream : IO.FS.Stream) : IO (Option String) := do
  let mut bytes := ByteArray.empty
  let mut chunk ← stream.read 65536
  while !chunk.isEmpty do
    bytes := bytes ++ chunk
    chunk ← stream.read 65536
  return String.fromUTF8? bytes

/-- The text of a file, if it can be had. -/
def readFile (path : String) : IO (Option String) := do
  try
    return some (← IO.FS.readFile path)
  catch _ =>
    return none

/-- A report of a form that fails, on one line. -/
def reportLine (name : String) (d : Diagnostic) : String :=
  let kind :=
    match d.severity with
    | .error => "Error"
    | .failedTest => "Test failed"
  let place := name ++ ":" ++ toString d.span.start ++ "-" ++ toString d.span.stop
  let part :=
    match d.part with
    | some part => "in " ++ part
    | none => "in this form"
  place ++ ": " ++ kind ++ ": " ++ d.message ++ " (" ++ part ++ ")"

/-- Runs a program text and gives the status to end with. -/
def runBatch (o : CommandLine.Options) : IO UInt32 := do
  let source? ← match o.path? with
    | some path => readFile path
    | none => readText (← IO.getStdin)
  match source? with
  | none =>
    IO.eprintln "tyro: the program text cannot be read"
    return CommandLine.Exit.unreadable.status.toUInt32
  | some source =>
    match CommandLine.run evaluationDepth o source with
    | none =>
      IO.eprintln "tyro: the program goes too deep"
      return 1
    | some exit =>
      IO.print exit.output
      for d in exit.reports do
        IO.eprintln (reportLine (o.path?.getD "<stdin>") d)
      return exit.status.toUInt32

/-- Runs an interactive session on the standard streams. -/
def runInteractive : IO UInt32 := do
  let stdin ← IO.getStdin
  IO.print Prompt.greeting
  let mut prompt := Prompt.start
  repeat
    let line ← stdin.getLine
    if line.isEmpty then
      IO.print Prompt.farewell
      return 0
    match prompt.feed Text.eraseBackspaces evaluationDepth line with
    | none =>
      IO.eprintln "tyro: the program goes too deep"
      return 1
    | some step =>
      IO.print step.shows
      for d in step.reports do
        IO.eprintln (reportLine "<entry>" d)
      match step.next with
      | .wait next => prompt := next
      | .leave => return 0
      | .breakOff =>
        IO.eprintln "tyro: a backspace leaves a part of a character"
        return Prompt.brokenStatus.toUInt32
  return 0

end Tyro

/-- The entry point. -/
def main (args : List String) : IO UInt32 := do
  if args = ["--interactive"] then Tyro.runInteractive
  else
    match Tyro.CommandLine.Options.ofArgs? args with
    | some o => Tyro.runBatch o
    | none =>
      IO.eprintln "usage: tyro [--strict] [--diagnostics] [FILE], or tyro --interactive"
      return Tyro.CommandLine.Exit.misused.status.toUInt32
