/-!
# Built-in functions

The functions of the library that are not defined by a program, and their names. What each of them
does is said elsewhere, beside the values that it works on.
-/

namespace Tyro

/-- A built-in function. -/
inductive Builtin where
  | add
  | subtract
  | multiply
  | divide
  | equal
  | less
  | greater
  | atMost
  | atLeast
  | sine
  | cosine
  | squareRoot
  | absolute
  | stringAppend
  | stringLength
  | stringEqual
  | not
  | same
  | isNumber
  | isString
  | isBoolean
  deriving DecidableEq, Repr

namespace Builtin

/-- The name of the function. -/
def name : Builtin → String
  | .add => "+"
  | .subtract => "-"
  | .multiply => "*"
  | .divide => "/"
  | .equal => "="
  | .less => "<"
  | .greater => ">"
  | .atMost => "<="
  | .atLeast => ">="
  | .sine => "sin"
  | .cosine => "cos"
  | .squareRoot => "sqrt"
  | .absolute => "abs"
  | .stringAppend => "string-append"
  | .stringLength => "string-length"
  | .stringEqual => "string=?"
  | .not => "not"
  | .same => "equal?"
  | .isNumber => "number?"
  | .isString => "string?"
  | .isBoolean => "boolean?"

/-- All built-in functions. -/
def all : List Builtin :=
  [.add, .subtract, .multiply, .divide, .equal, .less, .greater, .atMost, .atLeast, .sine, .cosine,
    .squareRoot, .absolute, .stringAppend, .stringLength, .stringEqual, .not, .same, .isNumber,
    .isString, .isBoolean]

theorem mem_all (f : Builtin) : f ∈ all := by cases f <;> decide

end Builtin

end Tyro
