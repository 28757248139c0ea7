import Tyro.Arity
import Tyro.Name
import Tyro.Sexp.Basic

/-!
# Faults of form

An S-expression that is not an expression, a definition or a test is reported against the form that
it was meant to be. Most faults say what was expected and what was found in its place; the rest are
forms in the wrong place and names that are used twice. Each fault keeps its cause; the wording is
in `FormFault.message`.
-/

namespace Tyro

/-- The places where a definition wants a name. -/
inductive NameRole where
  | variable
  | function
  | struct
  | field
  deriving DecidableEq, Repr

/-- The name that is wanted. -/
def NameRole.phrase : NameRole → String
  | .variable => "a variable"
  | .function => "the name of the function"
  | .struct => "the structure name after define-struct"
  | .field => "a field name"

/-- The places where a definition wants an expression. -/
inductive BodyPlace where
  | constant (name : String)
  | function
  deriving DecidableEq, Repr

/-- The place of the expression. -/
def BodyPlace.phrase : BodyPlace → String
  | .constant name => "after the variable name " ++ name
  | .function => "for the function body"

/-- What a form wants. -/
inductive Expectation where
  | parenthesisBefore (word : String)
  | function
  | ifParts
  | onlyIfParts
  | someClause
  | clause
  | name (role : NameRole)
  | definable
  | body (place : BodyPlace)
  | onlyBody (place : BodyPlace)
  | parameters
  | fields
  | noMoreThanFields
  deriving DecidableEq, Repr

/-- What is wanted, in words. -/
def Expectation.phrase : Expectation → String
  | .parenthesisBefore word => "an open parenthesis before " ++ word
  | .function => "a function after the open parenthesis"
  | .ifParts => "a question and two answers"
  | .onlyIfParts => "only a question and two answers"
  | .someClause => "a clause after cond"
  | .clause => "a clause with a question and an answer"
  | .name role => role.phrase
  | .definable => "a variable name, or a function name and its variables (in parentheses)"
  | .body place => "an expression " ++ place.phrase
  | .onlyBody place => "only one expression " ++ place.phrase
  | .parameters => "at least one variable after the function name"
  | .fields => "at least one field name (in parentheses) after the structure name"
  | .noMoreThanFields => "nothing after the field names"

/-- A number of parts with its noun. -/
def partsText (n : Nat) : String := toString n ++ if n = 1 then " part" else " parts"

/-- What stands in the place of what is wanted. -/
inductive Found where
  | nothing
  | none
  | only (parts : Nat)
  | extra (parts : Nat)
  | clauseOf (parts : Nat)
  | noun (what : Sexp.Noun)
  deriving DecidableEq, Repr

/-- What was found, in words. -/
def Found.phrase : Found → String
  | .nothing => "nothing's there"
  | .none => "found none"
  | .only n => "found only " ++ partsText n
  | .extra n => "found " ++ toString n ++ if n = 1 then " extra part" else " extra parts"
  | .clauseOf n => "found a clause with " ++ partsText n
  | .noun what => "found " ++ what.phrase

/-- Too few parts: either nothing at all or only some. -/
def Found.tooFew (n : Nat) : Found := if n = 0 then .nothing else .only n

/-- What is wrong with a form. -/
inductive FormFault where
  | expected (wanted : Expectation) (found : Found)
  | misplacedElse
  | nestedDefinition
  | nestedCheck
  | elseNotLast
  | repeated (role : NameRole) (name : String)
  | arity (allowed : Arity) (count : Nat)
  deriving DecidableEq, Repr

/-- The fault in words. -/
def FormFault.message : FormFault → String
  | .expected wanted found => "expected " ++ wanted.phrase ++ ", but " ++ found.phrase
  | .misplacedElse => "not allowed here, because this is not a question in a clause"
  | .nestedDefinition => "found a definition that is not at the top level"
  | .nestedCheck => "found a test that is not at the top level"
  | .elseNotLast => "found an else clause that isn't the last clause in its cond expression"
  | .repeated role name => "found " ++ role.phrase ++ " that is used more than once: " ++ name
  | .arity allowed count => allowed.complaint count

/-- The kind of form that a fault is reported against. -/
inductive FormOwner where
  | keyword (keyword : Keyword)
  | call
  deriving DecidableEq, Repr

/-- The name of the form in messages. -/
def FormOwner.text : FormOwner → String
  | .keyword k => k.text
  | .call => "function call"

/-- A fault of form, and the S-expression that has it. -/
structure FormError where
  owner : FormOwner
  fault : FormFault
  found : Sexp

/-- The error in words. -/
def FormError.message (e : FormError) : String := e.owner.text ++ ": " ++ e.fault.message

/-- Why an S-expression is no expression. -/
inductive ExprError where
  /-- A part of it could not be read. -/
  | read (error : ReadError)
  /-- A part of it has a fault of form. -/
  | form (error : FormError)

namespace ExprError

/-- The error in words. -/
def message : ExprError → String
  | .read e => e.message
  | .form e => e.message

/-- The S-expression that has a fault of form. -/
def found? : ExprError → Option Sexp
  | .read _ => none
  | .form e => some e.found

end ExprError

namespace Sexp

/-- The noun for an S-expression in a place where it does not belong. -/
def noun : Sexp → Noun
  | .string _ => .string
  | .number _ => .number
  | .boolean _ => .boolean
  | .name word => if Word.isReserved word then .keyword else .variable
  | .list _ => .part
  | .error _ => .part

end Sexp

end Tyro
