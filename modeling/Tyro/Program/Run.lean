import Tyro.Eval.Basic
import Tyro.Form.Parse
import Tyro.Program.Result

/-!
# Running a program

A program runs against a frame in three passes. The first reserves every name that its definitions
bind, so that a use before the definition is told from the use of a name that is bound nowhere. The
second evaluates definitions and expressions in order and leaves the tests for later. The third runs
the tests, which see everything that the program defines. Every form has its result, whatever
happened to the forms before it.

Where fuel runs out in a form, there is no result for the program: the functions below then answer
`none`.
-/

namespace Tyro

namespace Check

/-- A test of two values that were expected to be equal. -/
def compareEqual (actual expected : Value) : CheckResult :=
  if actual.equal expected then .success else .differs actual expected

/-- A test of two values that were expected to differ by no more than `delta`. Values that are not
both numbers have to be equal. -/
def compareWithin (actual expected : Value) (delta : Float) : CheckResult :=
  let isWithin : Bool :=
    match actual.number?, expected.number? with
    | some a, some e => (a - e).abs ≤ delta
    | _, _ => actual.equal expected
  if isWithin then .success else .notWithin actual expected delta

/-- A test of an error that was expected to have a message. -/
def compareError (error : EvalError) : Option String → CheckResult
  | some expected => if error.message = expected then .success else .wrongError expected error
  | none => .success

/-- The tolerance of a test, which has to be a number. -/
def toleranceOf : Except EvalError Value → Except EvalError Float
  | .error e => .error e
  | .ok v =>
    match v.number? with
    | some x => .ok x
    | none => .error (.about Keyword.checkWithin.text (.wrongKind .number 2 v))

/-- The message that a test expects, which has to be a string. -/
def messageOf : Except EvalError Value → Except EvalError String
  | .error e => .error e
  | .ok v =>
    match v.string? with
    | some s => .ok s
    | none => .error (.about Keyword.checkError.text (.wrongKind .string 1 v))

/-- The message that a test expects, if it names one. -/
def expectedMessage (eval : Expr → Option (Except EvalError Value)) :
    Option Expr → Option (Except EvalError (Option String))
  | none => some (.ok none)
  | some message => do return (messageOf (← eval message)).map some

/-- Runs a test, with the given evaluator. -/
def run (eval : Expr → Option (Except EvalError Value)) (c : Check) : Option CheckResult := do
  match c with
  | .expect actual expected =>
    match ← eval expected with
    | .error e => return .expectedFailed e
    | .ok expected =>
      match ← eval actual with
      | .error e => return .actualFailed c.keyword e expected
      | .ok actual => return compareEqual actual expected
  | .within actual expected delta =>
    match ← eval expected with
    | .error e => return .expectedFailed e
    | .ok expected =>
      match toleranceOf (← eval delta) with
      | .error e => return .expectedFailed e
      | .ok delta =>
        match ← eval actual with
        | .error e => return .actualFailed c.keyword e expected
        | .ok actual => return compareWithin actual expected delta
  | .error actual message =>
    match ← expectedMessage eval message with
    | .error e => return .expectedFailed e
    | .ok expected =>
      match ← eval actual with
      | .ok actual => return .noError actual
      | .error e => return compareError e expected

end Check

namespace Store

/-- Evaluates an expression at the top level of a frame. -/
def eval? (s : Store) (fuel : Nat) (frame : FrameId) (e : Expr) : Option (Except EvalError Value) :=
  (s.evalAtFuel fuel (.top frame) e).finished?

/-! ## Definitions -/

/-- Fills several names. All of them are tried, and the first refusal is reported. -/
def fillAll (s : Store) (frame : FrameId) : List (String × Value) → Option BindingError × Store
  | [] => (none, s)
  | (name, v) :: rest =>
    match s.fill frame name (.ok v) with
    | .ok s => s.fillAll frame rest
    | .error e => (some e, (s.fillAll frame rest).2)

/-- Evaluates a definition and fills its names. A constant is evaluated even if its name is filled
already, and then not bound. -/
def runDefinition (s : Store) (fuel : Nat) (frame : FrameId) :
    Definition → Option (FormResult × Store)
  | .constant name body => do
    let result ← s.eval? fuel frame body
    match s.fill frame name result, result with
    | .error e, _ => return (.unbound e, s)
    | .ok s, .error e => return (.unbound (.value e), s)
    | .ok s, .ok v => return (.bound name v, s)
  | .function name params body =>
    let v := Value.closure ⟨name, params, body, frame⟩
    match s.fill frame name (.ok v) with
    | .error e => some (.unbound e, s)
    | .ok s => some (.bound name v, s)
  | .struct name fields =>
    let (type, s) := s.newStruct name fields
    match s.fillAll frame type.functions with
    | (some e, s) => some (.unbound e, s)
    | (none, s) => some (.structBound name, s)

/-! ## Programs -/

/-- A form after the second pass: it has its result, or is a test that waits for the third. -/
inductive Pending where
  | done (result : FormResult)
  | waiting (check : Check)

/-- The second pass, for one form. -/
def runForm (s : Store) (fuel : Nat) (frame : FrameId) : Form → Option (Pending × Store)
  | .definition d => do
    let (result, s) ← s.runDefinition fuel frame d
    return (.done result, s)
  | .expression e => do
    match ← s.eval? fuel frame e with
    | .ok v => return (.done (.value v), s)
    | .error e => return (.done (.failed e), s)
  | .check c => some (.waiting c, s)
  | .malformed e => some (.done (.malformed e), s)

/-- The second pass: forms in order, the store of each handed on to the next. -/
def runForms (s : Store) (fuel : Nat) (frame : FrameId) : List Form → Option (List Pending × Store)
  | [] => some ([], s)
  | form :: forms => do
    let (pending, s) ← s.runForm fuel frame form
    let (rest, s) ← s.runForms fuel frame forms
    return (pending :: rest, s)

/-- The third pass: the tests that wait are run in the store that the second pass left. -/
def settle (s : Store) (fuel : Nat) (frame : FrameId) : List Pending → Option (List FormResult)
  | [] => some []
  | .done result :: rest => do return result :: (← s.settle fuel frame rest)
  | .waiting c :: rest => do
    let result ← c.run fun e => s.eval? fuel frame e
    return .check result :: (← s.settle fuel frame rest)

/-- Runs a program with a frame as its top level. -/
def run (s : Store) (fuel : Nat) (frame : FrameId) (forms : List Form) :
    Option (List FormResult × Store) := do
  let s := s.reserveAll frame (forms.flatMap Form.boundNames)
  let (pending, s) ← s.runForms fuel frame forms
  return (← s.settle fuel frame pending, s)

end Store

/-! ## Program texts -/

/-- What a form comes to, and where the form stands. -/
structure LocatedResult where
  result : FormResult
  span : Span

namespace Program

/-- Runs a list of forms with the library as their top level, which is given up when they have run.
-/
def run (fuel : Nat) (forms : List Form) : Option (List FormResult × Store) := do
  let (frame, s) := Store.empty.newLibrary
  let (results, s) ← s.run fuel frame forms
  return (results, s.release frame)

/-- Runs a program text. Every form has its result, in order and with its place. -/
def runText (fuel : Nat) (source : String) : Option (List LocatedResult) := do
  let data := Sexp.ofText source
  let (results, _) ← run fuel (data.map fun d => Form.ofSexp d.sexp)
  return (results.zip (data.map (·.span))).map fun (result, span) => ⟨result, span⟩

/-- What a program text prints. -/
def output (fuel : Nat) (source : String) : Option String := do
  return FormResult.print ((← runText fuel source).map (·.result))

end Program

end Tyro
