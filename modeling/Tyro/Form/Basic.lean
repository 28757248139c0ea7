import Tyro.Expr.Basic
import Tyro.Expr.Error

/-!
# Forms

A program is a list of top-level forms: definitions, expressions and tests. A form that could not be
read or has a fault stays in its place as a malformed one, so that the forms of a program and the
S-expressions of its text correspond one to one.
-/

namespace Tyro

/-- A definition of a constant, a function or a structure. -/
inductive Definition where
  | constant (name : String) (body : Expr)
  | function (name : String) (params : List String) (body : Expr)
  | struct (name : String) (fields : List String)

namespace Definition

/-- The name that the definition is for. -/
def name : Definition → String
  | .constant name _ => name
  | .function name _ _ => name
  | .struct name _ => name

/-- All names that the definition binds, in the order in which it binds them. -/
def boundNames : Definition → List String
  | .constant name _ => [name]
  | .function name _ _ => [name]
  | .struct name fields => structNames name fields

end Definition

/-- A test. -/
inductive Check where
  /-- Two expressions have equal values. -/
  | expect (actual expected : Expr)
  /-- Two expressions have values that differ by no more than a third. -/
  | within (actual expected delta : Expr)
  /-- An expression fails, with a given message if there is one. -/
  | error (actual : Expr) (message : Option Expr)

namespace Check

/-- The keyword that begins the test. -/
def keyword : Check → Keyword
  | .expect _ _ => .checkExpect
  | .within _ _ _ => .checkWithin
  | .error _ _ => .checkError

/-- The expressions of the test, in source order. -/
def parts : Check → List Expr
  | .expect actual expected => [actual, expected]
  | .within actual expected delta => [actual, expected, delta]
  | .error actual message => actual :: message.toList

end Check

/-- Why an S-expression is no form, by what it was meant to be. -/
inductive SyntaxError where
  /-- It could not be read. -/
  | read (error : ReadError)
  /-- It has the shape of no definition. -/
  | definition (error : FormError)
  /-- A part of a definition could not be read or is no expression. -/
  | body (error : ExprError)
  | expression (error : ExprError)
  | check (error : ExprError)

namespace SyntaxError

/-- The error below the top level. -/
def cause : SyntaxError → ExprError
  | .read e => .read e
  | .definition e => .form e
  | .body e => e
  | .expression e => e
  | .check e => e

/-- The error in words. -/
def message (e : SyntaxError) : String := e.cause.message

/-- The S-expression that has a fault of form. -/
def found? (e : SyntaxError) : Option Sexp := e.cause.found?

end SyntaxError

/-- A top-level form. -/
inductive Form where
  | definition (definition : Definition)
  | expression (expr : Expr)
  | check (check : Check)
  | malformed (error : SyntaxError)

namespace Form

/-- The names that the form binds. -/
def boundNames : Form → List String
  | .definition d => d.boundNames
  | _ => []

end Form

end Tyro
