import Tyro.Program.Run

/-!
# Diagnostics

The forms of a program that fail, each with its place, the line that is printed for it, and the part
of the program that the failure was reported against.
-/

namespace Tyro

/-- How a form fails. -/
inductive Severity where
  | error
  | failedTest
  deriving DecidableEq, Repr

/-- A form that fails. -/
structure Diagnostic where
  severity : Severity
  /-- Where the form stands. -/
  span : Span
  /-- The line that is printed for the form. -/
  message : String
  /-- The part that the failure was reported against, where there is one. -/
  part : Option String
  deriving DecidableEq, Repr

namespace Diagnostic

/-- The part that a failed test was reported against: the context of the error in it. -/
def partOfCheck : CheckResult → Option String
  | .actualFailed _ e _ => some e.context.render
  | .expectedFailed e => some e.context.render
  | .wrongError _ e => some e.context.render
  | _ => none

/-- The part that a definition was refused for. -/
def partOfBinding : BindingError → Option String
  | .alreadyDefined name => some name
  | .notReserved name => some name
  | .value e => some e.context.render

/-- The severity of a failure and the part that it was reported against. -/
def classify : FormResult → Option (Severity × Option String)
  | .bound _ _ => none
  | .structBound _ => none
  | .value _ => none
  | .check .success => none
  | .unbound e => some (.error, partOfBinding e)
  | .failed e => some (.error, some e.context.render)
  | .malformed e => some (.error, e.found?.map Sexp.render)
  | .check r => some (.failedTest, partOfCheck r)

/-- The diagnostic of a form, if the form fails. -/
def ofResult (r : LocatedResult) : Option Diagnostic :=
  (classify r.result).map fun (severity, part) => ⟨severity, r.span, r.result.text, part⟩

/-- The diagnostics of a program text, in the order of its forms. -/
def ofText (fuel : Nat) (source : String) : Option (List Diagnostic) := do
  return (← Program.runText fuel source).filterMap ofResult

end Diagnostic

end Tyro
