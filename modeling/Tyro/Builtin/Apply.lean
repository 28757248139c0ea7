import Tyro.Eval.Error

/-!
# What the built-in functions do

A built-in function checks the number of its arguments first, then the kind of every argument from
left to right, and computes last. The kinds are checked by viewing each argument as what is wanted,
so that the computations work on numbers, strings and truth values and not on values at large.

Sums start from negative zero and products from one: negative zero is the number that changes no
number it is added to, zeros of either sign included.
-/

namespace Tyro.Builtin

/-- What a function computes once the number of its arguments is known to be right. A computation on
numbers may refuse them; the others always have a value. -/
inductive Operation where
  | onNumbers (compute : List Float → Except EvalFault Value)
  | onStrings (compute : List String → Value)
  | onBooleans (compute : List Bool → Value)
  | onValues (compute : List Value → Value)

/-- The number of arguments that the function takes. -/
def arity : Builtin → Arity
  | .add | .multiply => .atLeast 2
  | .subtract | .divide => .atLeast 1
  | .equal | .less | .greater | .atMost | .atLeast => .atLeast 2
  | .sine | .cosine | .squareRoot | .absolute => .exactly 1
  | .stringAppend => .atLeast 0
  | .stringLength => .exactly 1
  | .stringEqual => .atLeast 2
  | .not => .exactly 1
  | .same => .exactly 2
  | .isNumber | .isString | .isBoolean => .exactly 1

/-! ## Arithmetic -/

/-- The sum, from left to right. -/
def sum (xs : List Float) : Float := xs.foldl (· + ·) (-0.0)

/-- The product, from left to right. -/
def product (xs : List Float) : Float := xs.foldl (· * ·) 1

/-- The first number less all others; of a single number, its negative. -/
def difference : List Float → Float
  | [] => 0
  | [x] => -x
  | x :: rest => rest.foldl (· - ·) x

/-- A number divided by the others one after the other, unless one of them is zero. -/
def divideAll (x : Float) : List Float → Except EvalFault Float
  | [] => .ok x
  | y :: rest => if y == 0 then .error .divisionByZero else divideAll (x / y) rest

/-- The first number divided by all others; of a single number, its reciprocal. -/
def quotient : List Float → Except EvalFault Float
  | [] => .ok 1
  | [x] => divideAll 1 [x]
  | x :: rest => divideAll x rest

/-- A function of the first number. -/
def onFirst (compute : Float → Float) (xs : List Float) : Except EvalFault Value :=
  .ok (.number (compute (xs.headD 0)))

/-- The square root of the first number, which must not be negative. -/
def root (xs : List Float) : Except EvalFault Value :=
  let x := xs.headD 0
  if x < 0 then .error (.wrongKind .nonNegative 0 (.number x)) else .ok (.number x.sqrt)

/-! ## Comparison -/

/-- Whether a relation holds between each two neighbours of a list. -/
def chain {α : Type} (related : α → α → Bool) : List α → Bool
  | x :: y :: rest => related x y && chain related (y :: rest)
  | _ => true

/-- A comparison of numbers that holds between all neighbours. -/
def comparison (related : Float → Float → Bool) : Operation :=
  .onNumbers fun xs => .ok (.boolean (chain related xs))

/-! ## The operations -/

/-- Whether both of two values are equal atoms. -/
def equalPair : List Value → Bool
  | [a, b] => a.equal b
  | _ => false

/-- Whether the first value passes a test. -/
def firstIs (test : Value → Bool) (vs : List Value) : Value := .boolean (vs.head?.any test)

/-- What the function computes. -/
def operation : Builtin → Operation
  | .add => .onNumbers fun xs => .ok (.number (sum xs))
  | .subtract => .onNumbers fun xs => .ok (.number (difference xs))
  | .multiply => .onNumbers fun xs => .ok (.number (product xs))
  | .divide => .onNumbers fun xs => (quotient xs).map .number
  | .equal => comparison fun x y => x == y
  | .less => comparison fun x y => x < y
  | .greater => comparison fun x y => x > y
  | .atMost => comparison fun x y => x ≤ y
  | .atLeast => comparison fun x y => x ≥ y
  | .sine => .onNumbers (onFirst Float.sin)
  | .cosine => .onNumbers (onFirst Float.cos)
  | .squareRoot => .onNumbers root
  | .absolute => .onNumbers (onFirst Float.abs)
  | .stringAppend => .onStrings fun ss => .string (String.join ss)
  | .stringLength => .onStrings fun ss => .number (Float.ofNat (ss.headD "").length)
  | .stringEqual => .onStrings fun ss => .boolean (chain (fun s t => s = t) ss)
  | .not => .onBooleans fun bs => .boolean (!bs.headD false)
  | .same => .onValues fun vs => .boolean (equalPair vs)
  | .isNumber => .onValues (firstIs fun v => v.number?.isSome)
  | .isString => .onValues (firstIs fun v => v.string?.isSome)
  | .isBoolean => .onValues (firstIs fun v => v.boolean?.isSome)

/-! ## Application -/

/-- The arguments, from the given place on, as what is wanted; or the fault of the first one that is
something else. -/
def viewAll {α : Type} (view : Value → Option α) (wanted : ArgKind) (index : Nat) :
    List Value → Except EvalFault (List α)
  | [] => .ok []
  | v :: vs =>
    match view v with
    | some x => (viewAll view wanted (index + 1) vs).map (x :: ·)
    | none => .error (.wrongKind wanted index v)

/-- What an operation makes of the arguments. -/
def Operation.run (op : Operation) (args : List Value) : Except EvalFault Value :=
  match op with
  | .onNumbers compute => (viewAll Value.number? .number 0 args).bind compute
  | .onStrings compute => (viewAll Value.string? .string 0 args).map compute
  | .onBooleans compute => (viewAll Value.boolean? .boolean 0 args).map compute
  | .onValues compute => .ok (compute args)

/-- Applies a built-in function to arguments. -/
def apply (f : Builtin) (args : List Value) : Except EvalError Value :=
  if f.arity.accepts args.length then (f.operation.run args).mapError (EvalError.about f.name)
  else .error (.about f.name (.arity f.arity args.length))

end Tyro.Builtin
