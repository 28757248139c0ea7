import Tyro.Arity
import Tyro.Value.Basic

/-!
# Evaluation errors

Why an expression has no value, and the expression or function that is named in the message. Each
error keeps its cause with the values that go with it; the wording is in `EvalFault.message`.
-/

namespace Tyro

/-- The kinds of argument that functions want. -/
inductive ArgKind where
  | number
  | nonNegative
  | string
  | boolean
  deriving DecidableEq, Repr

/-- The kind of argument in words. -/
def ArgKind.phrase : ArgKind → String
  | .number => "a number"
  | .nonNegative => "a non-negative number"
  | .string => "a string"
  | .boolean => "a boolean"

/-- A place in a list, in figures with the ending of an ordinal number: 1st, 2nd, 3rd, 4th. The
numbers that end in 11, 12 or 13 take the ending of the many. -/
def ordinal (n : Nat) : String :=
  let ending :=
    if 11 ≤ n % 100 && n % 100 ≤ 13 then "th"
    else
      match n % 10 with
      | 1 => "st"
      | 2 => "nd"
      | 3 => "rd"
      | _ => "th"
  toString n ++ ending

/-- Why an expression has no value. -/
inductive EvalFault where
  /-- A name is bound nowhere. -/
  | undefined
  /-- A name is bound by a definition that has not been evaluated. -/
  | definedLater
  /-- Code is still to be written. -/
  | template
  /-- A question has a value that is no truth value. -/
  | notBoolean (given : Value)
  /-- No question of a `cond` is true. -/
  | noAnswer
  /-- A call has a number of arguments that is not allowed. -/
  | arity (allowed : Arity) (count : Nat)
  /-- Something that is no function is called. -/
  | notFunction
  /-- An argument, counted from zero, is of the wrong kind. -/
  | wrongKind (wanted : ArgKind) (index : Nat) (given : Value)
  /-- An accessor is called on something that is no structure of its type. -/
  | wrongStruct (wanted : String) (given : Value)
  | divisionByZero
  /-- The frame in which a function was defined is gone. -/
  | homeless

/-- The cause in words. -/
def EvalFault.message : EvalFault → String
  | .undefined => "this variable is not defined"
  | .definedLater => "Expression defined later in program"
  | .template => "expected a finished expression, but found a template"
  | .notBoolean given => "question result is not true or false: " ++ given.render
  | .noAnswer => "all question results were false"
  | .arity allowed count => allowed.complaint count
  | .notFunction => "tried to apply a non-function"
  | .wrongKind wanted index given =>
    "expects " ++ wanted.phrase ++ " as " ++ ordinal (index + 1) ++ " argument, given " ++
      given.render
  | .wrongStruct wanted given => "expects a " ++ wanted ++ ", given " ++ given.render
  | .divisionByZero => "division by zero"
  | .homeless => "the program that defined this function is no longer running"

/-- An error of evaluation: the expression that it is reported against, and the cause. -/
structure EvalError where
  context : Expr
  fault : EvalFault

namespace EvalError

/-- An error reported against a name, of a variable or a function. -/
def about (name : String) (fault : EvalFault) : EvalError := ⟨.name name, fault⟩

/-- The error in words. -/
def message (e : EvalError) : String := e.context.render ++ ": " ++ e.fault.message

end EvalError

end Tyro
