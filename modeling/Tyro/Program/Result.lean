import Tyro.Form.Basic
import Tyro.Store.Basic

/-!
# Results

What each form of a program comes to, and the line that is printed for it. `FormResult.isFailure`
tells the results that are an error or a failed test from the others.
-/

namespace Tyro

/-- What a test comes to. The expected side is evaluated before the actual one. -/
inductive CheckResult where
  | success
  | differs (actual expected : Value)
  | notWithin (actual expected : Value) (delta : Float)
  /-- The actual side failed, the expected side did not. -/
  | actualFailed (keyword : Keyword) (error : EvalError) (expected : Value)
  /-- The expected side failed, or the tolerance, or the message to expect. -/
  | expectedFailed (error : EvalError)
  /-- A value came where an error was expected. -/
  | noError (actual : Value)
  /-- An error came with another message than the expected one. -/
  | wrongError (expected : String) (error : EvalError)

/-- The line for a test. -/
def CheckResult.text : CheckResult → String
  | .success => "🎉 Test passed!"
  | .differs actual expected =>
    "Actual value " ++ actual.render ++ " differs from " ++ expected.render ++
      ", the expected value."
  | .notWithin actual expected delta =>
    "Actual value " ++ actual.render ++ " is not within " ++ Number.text delta ++
      " of expected value " ++ expected.render ++ "."
  | .actualFailed keyword e expected =>
    keyword.text ++ " encountered the following error instead of the expected value, " ++
      expected.render ++ ". :: " ++ e.message
  | .expectedFailed e => e.message
  | .noError actual =>
    "check-error expected an error, but instead received the value " ++ actual.render ++ "."
  | .wrongError expected e =>
    "check-error encountered the following error instead of the expected " ++ expected ++ " :: " ++
      e.message

/-- What a form comes to. -/
inductive FormResult where
  /-- A constant or a function is defined. -/
  | bound (name : String) (value : Value)
  /-- A structure is defined, which binds several names at once. -/
  | structBound (name : String)
  /-- A definition binds nothing, or not all of its names. -/
  | unbound (error : BindingError)
  | value (value : Value)
  | failed (error : EvalError)
  | check (result : CheckResult)
  | malformed (error : SyntaxError)

namespace FormResult

/-- The line for the definition of a name: a function is shown with its parameters and its body, but
under another name than its own just by its name. -/
def boundText (name : String) (v : Value) : String :=
  match v with
  | .closure f =>
    if f.name = name then
      "Defined (" ++ name ++ spaced f.params ++ ") to be " ++ f.body.render ++ "."
    else "Defined " ++ name ++ " to be " ++ v.render ++ "."
  | _ => "Defined " ++ name ++ " to be " ++ v.render ++ "."

/-- The line for a form. -/
def text : FormResult → String
  | .bound name v => boundText name v
  | .structBound name => "Defined structure " ++ name ++ "."
  | .unbound e => e.message
  | .value v => v.render
  | .failed e => e.message
  | .check r => r.text
  | .malformed e => e.message

/-- Whether the result is an error or a failed test. -/
def isFailure : FormResult → Bool
  | .bound _ _ => false
  | .structBound _ => false
  | .unbound _ => true
  | .value _ => false
  | .failed _ => true
  | .check .success => false
  | .check _ => true
  | .malformed _ => true

/-- The lines for several results. A program without forms still prints an empty line. -/
def print (results : List FormResult) : String :=
  if results.isEmpty then "\n" else String.join (results.map fun r => r.text ++ "\n")

end FormResult

end Tyro
