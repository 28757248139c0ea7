import Tyro.Program.Run

/-!
# Sessions

A session works on a store step by step: it evaluates expressions in one frame to make, extend and
change others, applies the values of expressions to each other and compares them. Where a step takes
several expressions, they are evaluated in order, and the first one that fails decides.
-/

namespace Tyro

/-- The expression that begins a text. -/
def Expr.ofText (source : String) : Except ExprError Expr :=
  Expr.ofSexp (Sexp.readFirst (Token.scan source)).1

/-- What a step comes to that needs the values of operands first. -/
inductive Attempt (α : Type) where
  | operandFailed (error : EvalError)
  | done (outcome : α)

namespace Session

/-- The values of expressions, or the first error. -/
def evalEach (s : Store) (fuel : Nat) (frame : FrameId) :
    List Expr → Option (Except EvalError (List Value))
  | [] => some (.ok [])
  | e :: es => do
    match ← s.eval? fuel frame e with
    | .error err => return .error err
    | .ok v => return (← evalEach s fuel frame es).map (v :: ·)

/-- Makes a frame on top of another, with the values of expressions of a third. -/
def extend (s : Store) (fuel : Nat) (frame source : FrameId) (bindings : List (String × Expr)) :
    Option (Except EvalError (FrameId × Store)) := do
  let values ← evalEach s fuel source (bindings.map Prod.snd)
  return values.map fun vs => s.extend frame ((bindings.map Prod.fst).zip vs)

/-- Binds a name of a frame to the value of an expression of another. -/
def define (s : Store) (fuel : Nat) (frame source : FrameId) (name : String) (e : Expr) :
    Option (Except EvalError Value × Store) := do
  match ← s.eval? fuel source e with
  | .ok v => return (.ok v, s.define frame name v)
  | .error err => return (.error err, s)

/-- Fills a name of a frame with the result of an expression of another. -/
def fill (s : Store) (fuel : Nat) (frame source : FrameId) (name : String) (e : Expr) :
    Option (Except BindingError Store) := do
  return s.fill frame name (← s.eval? fuel source e)

/-- Applies the value of an expression of one frame to the values of expressions of another. -/
def apply (s : Store) (fuel : Nat) (frame source : FrameId) (function : Expr) (args : List Expr)
    (call : Expr) : Option (Attempt (Except EvalError Value)) := do
  match ← s.eval? fuel source function with
  | .error e => return .operandFailed e
  | .ok f =>
    match ← evalEach s fuel frame args with
    | .error e => return .operandFailed e
    | .ok vs => return .done (← (s.applyAtFuel fuel f vs call).finished?)

/-- Compares the value of an expression of one frame with that of another: whether they are equal in
the language, and whether their contents are alike. -/
def compare (s : Store) (fuel : Nat) (frame source : FrameId) (a b : Expr) :
    Option (Attempt (Bool × Bool)) := do
  match ← s.eval? fuel frame a with
  | .error e => return .operandFailed e
  | .ok a =>
    match ← s.eval? fuel source b with
    | .error e => return .operandFailed e
    | .ok b => return .done (a.equal b, a.alike b)

end Session

end Tyro
