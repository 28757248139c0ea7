import Tyro.Editor.Validate
import Tyro.Program.Diagnostic

/-!
# Sessions

An interactive session reads entries line by line and shows what their forms come to. All entries
together make one program, which grows with every entry and is run again from its beginning; only
the results of the forms that are new are shown. So a function may use what is defined after it, in
a later entry.

A line ends where its line end is, a line feed with or without a carriage return before it. What is
typed is edited before it becomes an entry. How that is done is the matter of the terminal, and a
parameter here (`Prompt.Editing`). While an entry is incomplete, the line ends inside it belong to
it, and can be edited too; a line that makes it wrong loses its line end, and the entry goes on.
-/

namespace Tyro

/-- An interactive session. -/
structure Prompt where
  /-- The entries so far, each with a line feed after it. -/
  program : String
  /-- How many forms the program has, all of which have been shown. -/
  shown : Nat
  /-- The lines of the entry that is being read. -/
  entry : String

namespace Prompt

/-- What editing makes of the characters that are typed; nothing if a part of a character would be
left. -/
abbrev Editing := List Char → Option (List Char)

/-- The session before any entry. -/
def start : Prompt := ⟨"", 0, ""⟩

/-- What is shown before the first entry. -/
def greeting : String :=
  "BSL REPL v0.1.0\nType 'exit' or press Ctrl-D to quit.\nNo previous history.\n"

/-- What is shown at the end of the input. -/
def farewell : String := "\nExiting.\n"

/-- The text without the line end that it ends with, if it ends with one, and that line end. -/
def splitLineEnd (cs : List Char) : List Char × List Char :=
  match cs.reverse with
  | '\n' :: '\r' :: rest => (rest.reverse, ['\r', '\n'])
  | '\n' :: rest => (rest.reverse, ['\n'])
  | _ => (cs, [])

/-- Whether an entry asks for the end of the session, in letters of any case. -/
def isExit (entry : String) : Bool :=
  (Text.trim entry).toList.map Char.toLower = ['e', 'x', 'i', 't']

/-- How a session goes on after a line. -/
inductive Next where
  /-- It waits for the next line. -/
  | wait (p : Prompt)
  /-- It ends, as it was asked to. -/
  | leave
  /-- It breaks off, as editing would have left a part of a character. -/
  | breakOff

/-- What a step of the session comes to. -/
structure Step where
  /-- The lines of the new forms that do not fail. -/
  shows : String
  /-- The new forms that fail. -/
  reports : List Diagnostic
  /-- How the session goes on. -/
  next : Next

/-- The step that only goes on. -/
def Step.quiet (next : Next) : Step := ⟨"", [], next⟩

/-- Takes a complete entry. A blank one changes nothing. -/
def submit (p : Prompt) (fuel : Nat) (entry : String) : Option Step := do
  if (Text.trim entry).isEmpty then return .quiet (.wait { p with entry := "" })
  else if isExit entry then return .quiet .leave
  else
    let program := p.program ++ entry ++ "\n"
    let results ← Program.runText fuel program
    let new := results.drop p.shown
    let passed := new.filter fun r => !r.result.isFailure
    return {
      shows := String.join (passed.map fun r => r.result.text ++ "\n")
      reports := new.filterMap Diagnostic.ofResult
      next := .wait ⟨program, results.length, ""⟩ }

/-- Takes a line, with its line end. -/
def feed (p : Prompt) (edit : Editing) (fuel : Nat) (line : String) : Option Step :=
  let (typed, lineEnd) := splitLineEnd (p.entry ++ line).toList
  match edit typed with
  | none => some (.quiet .breakOff)
  | some kept =>
    let entry := String.ofList kept
    match Entry.verdict entry with
    | .complete => p.submit fuel entry
    | .incomplete => some (.quiet (.wait { p with entry := entry ++ String.ofList lineEnd }))
    | .wrong _ => some (.quiet (.wait { p with entry := entry }))

/-- The lines of a text, each with the line feed that ends it. -/
def lines : List Char → List (List Char)
  | [] => []
  | c :: cs =>
    if c = '\n' then [c] :: lines cs
    else
      match lines cs with
      | [] => [[c]]
      | line :: rest => (c :: line) :: rest

/-- All that a session shows, and the status that it ends with. -/
structure Transcript where
  output : String
  status : UInt8

/-- The status of a session that breaks off. -/
def brokenStatus : UInt8 := 101

/-- What the session shows for the lines that follow, and its status. -/
def runLines (p : Prompt) (edit : Editing) (fuel : Nat) : List (List Char) → Option Transcript
  | [] => some ⟨farewell, 0⟩
  | line :: rest => do
    let step ← p.feed edit fuel (String.ofList line)
    match step.next with
    | .wait p =>
      let later ← p.runLines edit fuel rest
      return { later with output := step.shows ++ later.output }
    | .leave => return ⟨step.shows, 0⟩
    | .breakOff => return ⟨step.shows, brokenStatus⟩

end Prompt

end Tyro
