import Tyro.Program.Diagnostic

/-!
# The command line

The program is run as `tyro [--strict] [--diagnostics] [FILE]`. It runs the program text in `FILE`,
or the text of the standard input where `FILE` is missing or a single dash, and writes the line of
every form. With `--strict` it ends with status 1 if a form fails; with `--diagnostics` it also
reports the forms that fail, apart from the output.
-/

namespace Tyro.CommandLine

/-- What the arguments ask for. -/
structure Options where
  strict : Bool
  diagnostics : Bool
  /-- The file to run, or the standard input. -/
  file : Option String
  deriving DecidableEq, Repr

namespace Options

/-- What is asked for without arguments. -/
def default : Options := ⟨false, false, none⟩

/-- Adds what the arguments ask for. No flag may be given twice, and no second file. -/
def add? (o : Options) : List String → Option Options
  | [] => some o
  | "--strict" :: rest => if o.strict then none else add? { o with strict := true } rest
  | "--diagnostics" :: rest =>
    if o.diagnostics then none else add? { o with diagnostics := true } rest
  | arg :: rest =>
    if o.file.isSome || (arg.startsWith "-" && arg ≠ "-") then none
    else add? { o with file := some arg } rest

/-- What the arguments ask for, if they ask for something. -/
def ofArgs? (args : List String) : Option Options := add? default args

/-- The path of the file to run, where it is not the standard input that is to be run. -/
def path? (o : Options) : Option String := o.file.filter (· ≠ "-")

end Options

/-- What the program leaves behind: its output, the reports, and its status. -/
structure Exit where
  output : String
  reports : List Diagnostic
  status : UInt8

/-- The end of a program whose text cannot be had. -/
def Exit.unreadable : Exit := ⟨"", [], 1⟩

/-- The end of a program with arguments that ask for nothing sensible. -/
def Exit.misused : Exit := ⟨"", [], 2⟩

/-- Runs a program text as the options ask. -/
def run (fuel : Nat) (o : Options) (source : String) : Option Exit := do
  let results ← Program.runText fuel source
  let failed := results.any fun r => r.result.isFailure
  return {
    output := FormResult.print (results.map fun r => r.result)
    reports := if o.diagnostics then results.filterMap Diagnostic.ofResult else []
    status := if o.strict && failed then 1 else 0 }

end Tyro.CommandLine
