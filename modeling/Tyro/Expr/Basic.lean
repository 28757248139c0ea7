import Tyro.Name
import Tyro.Sexp.Basic

/-!
# Expressions

The expressions of the language: atoms, names, templates for unfinished code, calls of named
functions, and the forms `if`, `cond`, `and` and `or`. The type of clauses allows an `else` in the
last place only. `Expr.render` writes an expression as source text again; `Expr.alike` compares two
as arithmetic compares numbers, so that a zero equals a negative zero.
-/

namespace Tyro

/-- The two operators that combine truth values. -/
inductive Connective where
  | and
  | or
  deriving DecidableEq, Repr

namespace Connective

/-- The keyword of the operator. -/
def keyword : Connective → Keyword
  | .and => .and
  | .or => .or

/-- The truth value of an operand that settles the result without the operands after it. -/
def settledBy : Connective → Bool
  | .and => false
  | .or => true

end Connective

mutual

/-- An expression. -/
inductive Expr where
  | string (content : String)
  | number (value : Float)
  | boolean (value : Bool)
  | name (word : String)
  | template (dots : String)
  | call (function : String) (args : List Expr)
  | ifElse (question yes no : Expr)
  | cond (clauses : Clauses)
  | logical (connective : Connective) (operands : List Expr)

/-- The clauses of a `cond`. -/
inductive Clauses where
  | none
  | otherwise (answer : Expr)
  | clause (question answer : Expr) (rest : Clauses)

end

instance : Inhabited Expr := ⟨.boolean false⟩

/-! ## Rendering -/

mutual

/-- The expression as source text: one space between parts, square brackets around clauses. -/
def Expr.render : Expr → String
  | .string content => quotedText content
  | .number value => Number.text value
  | .boolean value => booleanText value
  | .name word => word
  | .template dots => dots
  | .call function args => "(" ++ function ++ spaced (Expr.renderAll args) ++ ")"
  | .ifElse question yes no =>
    "(if" ++ spaced [question.render, yes.render, no.render] ++ ")"
  | .cond clauses => "(cond" ++ spaced clauses.renderAll ++ ")"
  | .logical connective operands =>
    "(" ++ connective.keyword.text ++ spaced (Expr.renderAll operands) ++ ")"

/-- The texts of several expressions. -/
def Expr.renderAll : List Expr → List String
  | [] => []
  | e :: es => e.render :: Expr.renderAll es

/-- The texts of the clauses. -/
def Clauses.renderAll : Clauses → List String
  | .none => []
  | .otherwise answer => ["[else " ++ answer.render ++ "]"]
  | .clause question answer rest =>
    ("[" ++ question.render ++ " " ++ answer.render ++ "]") :: rest.renderAll

end

theorem Expr.renderAll_eq_map (es : List Expr) : Expr.renderAll es = es.map Expr.render := by
  induction es with
  | nil => simp [Expr.renderAll]
  | cons e es ih => simp [Expr.renderAll, ih]

/-! ## Comparing -/

mutual

/-- Whether two expressions are the same, with their numbers compared as numbers. -/
def Expr.alike : Expr → Expr → Bool
  | .string a, .string b => a = b
  | .number a, .number b => a == b
  | .boolean a, .boolean b => a = b
  | .name a, .name b => a = b
  | .template a, .template b => a = b
  | .call f as, .call g bs => f = g && Expr.allAlike as bs
  | .ifElse q y n, .ifElse q' y' n' => q.alike q' && y.alike y' && n.alike n'
  | .cond cs, .cond ds => cs.alike ds
  | .logical c as, .logical d bs => c = d && Expr.allAlike as bs
  | _, _ => false

/-- Whether two lists of expressions are the same, item by item. -/
def Expr.allAlike : List Expr → List Expr → Bool
  | [], [] => true
  | a :: as, b :: bs => a.alike b && Expr.allAlike as bs
  | _, _ => false

/-- Whether two lists of clauses are the same, clause by clause. -/
def Clauses.alike : Clauses → Clauses → Bool
  | .none, .none => true
  | .otherwise a, .otherwise b => a.alike b
  | .clause q a cs, .clause r b ds => q.alike r && a.alike b && cs.alike ds
  | _, _ => false

end

end Tyro
