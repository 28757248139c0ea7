import Tyro.Builtin.Apply
import Tyro.Eval.Answer
import Tyro.Store.Basic

/-!
# Evaluation

`evalAtFuel` evaluates an expression in a scope: the arguments of the function that is running, on
top of a frame of the store. Evaluation reads the store and never changes it, so that all it leaves
behind is its answer. Parts are evaluated from left to right and the first error ends the
evaluation; the function of a call is looked up before its arguments are evaluated.

The fuel bounds the depth of the evaluation, of nested expressions and calls together, and not its
length. An answer that is reached with some fuel stays the same with more.
-/

namespace Tyro

/-- Where names are looked up: first among the arguments of a call, then from a frame outward. -/
structure Scope where
  locals : Bindings Value
  frame : FrameId

namespace Scope

/-- The scope of a frame outside any call. -/
def top (frame : FrameId) : Scope := ⟨.empty, frame⟩

/-- What a name stands for. -/
def lookup (scope : Scope) (s : Store) (name : String) : Except EvalError Value :=
  match scope.locals.get? name with
  | some v => .ok v
  | none =>
    match s.lookup scope.frame name with
    | some (.filled result) => result
    | some .reserved => .error (.about name .definedLater)
    | none => .error (.about name .undefined)

end Scope

namespace Eval

/-! ## Parts

Each of these takes the evaluator of the parts as an argument. -/

/-- The values of several expressions. -/
def all (eval : Expr → Answer Value) : List Expr → Answer (List Value)
  | [] => .result []
  | e :: es => do return (← eval e) :: (← all eval es)

/-- The truth value of a question that belongs to a form. -/
def question (eval : Expr → Answer Value) (form q : Expr) : Answer Bool := do
  let v ← eval q
  match v.boolean? with
  | some b => return b
  | none => .error ⟨form, .notBoolean v⟩

/-- The answer of the first clause whose question is true. -/
def clauses (eval : Expr → Answer Value) (form : Expr) : Clauses → Answer Value
  | .none => .error ⟨form, .noAnswer⟩
  | .otherwise answer => eval answer
  | .clause q answer rest => do
    if ← question eval form q then eval answer else clauses eval form rest

/-- The value of a logical form: that of the first operand that settles it, or else the opposite.
All operands that are evaluated have to be truth values, the last one included. -/
def operands (eval : Expr → Answer Value) (form : Expr) (connective : Connective) :
    List Expr → Answer Value
  | [] => .result (.boolean !connective.settledBy)
  | e :: es => do
    let b ← question eval form e
    if b = connective.settledBy then return .boolean b else operands eval form connective es

/-! ## Applying functions -/

/-- Whether a function gets the one number of arguments that it takes. -/
def checkCount (name : String) (count : Nat) (args : List Value) : Except EvalError Unit :=
  if (Arity.exactly count).accepts args.length then .ok ()
  else .error (.about name (.arity (.exactly count) args.length))

/-- The value of a field, if the argument is a structure of the type. -/
def access (type : StructType) (index : Nat) (args : List Value) : Except EvalError Value := do
  let name := accessorName type.name (type.field index)
  checkCount name 1 args
  let given := args.headD default
  let refused := EvalError.about name (.wrongStruct type.name given)
  match given with
  | .struct type' fields =>
    if type' = type then
      match fields[index]? with
      | some v => return v
      | none => .error refused
    else .error refused
  | _ => .error refused

/-- Whether a value is a structure of the type. -/
def isStruct (type : StructType) : Value → Bool
  | .struct type' _ => type' = type
  | _ => false

/-- Applies a function to arguments. The bodies of functions are evaluated by `eval`, in the scope
that the call makes for them; `call` is what an attempt to call something else is reported against.
-/
def apply (s : Store) (eval : Scope → Expr → Answer Value) (function : Value) (args : List Value)
    (call : Expr) : Answer Value :=
  match function with
  | .builtin f => .ofExcept (f.apply args)
  | .closure f => do
    .ofExcept (checkCount f.name f.params.length args)
    if s.isLive f.home then eval ⟨.ofList (f.params.zip args), f.home⟩ f.body
    else .error (.about f.name .homeless)
  | .constructor type => do
    .ofExcept (checkCount (constructorName type.name) type.fields.length args)
    return .struct type args
  | .accessor type index => .ofExcept (access type index args)
  | .predicate type => do
    .ofExcept (checkCount (predicateName type.name) 1 args)
    return .boolean (isStruct type (args.headD default))
  | _ => .error ⟨call, .notFunction⟩

end Eval

namespace Store

/-! ## The evaluator -/

/-- Evaluates an expression in a scope, no deeper than the fuel allows. -/
def evalAtFuel (s : Store) : Nat → Scope → Expr → Answer Value
  | 0, _, _ => .outOfFuel
  | fuel + 1, scope, expr =>
    match expr with
    | .string content => .result (.string content)
    | .number value => .result (.number value)
    | .boolean value => .result (.boolean value)
    | .name word => .ofExcept (scope.lookup s word)
    | .template _ => .error ⟨expr, .template⟩
    | .call function args => do
      let f ← .ofExcept (scope.lookup s function)
      let vs ← Eval.all (fun e => evalAtFuel s fuel scope e) args
      Eval.apply s (fun inner body => evalAtFuel s fuel inner body) f vs expr
    | .ifElse q yes no => do
      if ← Eval.question (fun e => evalAtFuel s fuel scope e) expr q then
        evalAtFuel s fuel scope yes
      else evalAtFuel s fuel scope no
    | .cond clauses => Eval.clauses (fun e => evalAtFuel s fuel scope e) expr clauses
    | .logical connective es =>
      Eval.operands (fun e => evalAtFuel s fuel scope e) expr connective es

/-- Applies a function value to arguments, no deeper than the fuel allows. -/
def applyAtFuel (s : Store) (fuel : Nat) (function : Value) (args : List Value) (call : Expr) :
    Answer Value :=
  Eval.apply s (fun scope body => s.evalAtFuel fuel scope body) function args call

end Store

end Tyro
