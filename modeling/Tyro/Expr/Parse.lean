import Tyro.Expr.Basic
import Tyro.Expr.Error

/-!
# Parsing expressions

`Expr.ofSexp` takes an S-expression to the expression that it stands for. The first word of a list
decides: a template swallows the rest of its list, a keyword begins its own form, and any other word
is the name of a function that is called. Definitions and tests are not expressions. Faults are met
from left to right, and the first one is reported.
-/

namespace Tyro

namespace Expr

/-- A fault of form found in an S-expression, as an error. -/
def fault {α : Type} (owner : FormOwner) (fault : FormFault) (found : Sexp) : Except ExprError α :=
  .error (.form ⟨owner, fault, found⟩)

/-- A word that stands by itself. -/
def ofWord (word : String) : Except ExprError Expr :=
  match Word.of word with
  | .template => .ok (.template word)
  | .keyword .elseWord => fault (.keyword .elseWord) .misplacedElse (.name word)
  | .keyword k => fault (.keyword k) (.expected (.parenthesisBefore word) .none) (.name word)
  | .free => .ok (.name word)

/-- The arguments that `and` and `or` take. -/
def operandArity : Arity := .atLeast 2

mutual

/-- The expression that an S-expression stands for. -/
def ofSexp : Sexp → Except ExprError Expr
  | .string content => .ok (.string content)
  | .number value => .ok (.number value)
  | .boolean value => .ok (.boolean value)
  | .name word => ofWord word
  | .error e => .error (.read e)
  | .list [] => fault .call (.expected .function .nothing) (.list [])
  | .list (.name word :: args) =>
    let form := Sexp.list (.name word :: args)
    match Word.of word with
    | .template => .ok (.template word)
    | .free => do return .call word (← ofSexps args)
    | .keyword .ifWord =>
      match args with
      | [question, yes, no] => do
        return .ifElse (← ofSexp question) (← ofSexp yes) (← ofSexp no)
      | _ =>
        if args.length < 3 then
          fault (.keyword .ifWord) (.expected .ifParts (.tooFew args.length)) form
        else fault (.keyword .ifWord) (.expected .onlyIfParts (.extra (args.length - 3))) form
    | .keyword .cond =>
      match args with
      | [] => fault (.keyword .cond) (.expected .someClause .nothing) form
      | _ => do return .cond (← clausesOf form args)
    | .keyword .and => do
      if operandArity.accepts args.length then return .logical .and (← ofSexps args)
      else fault (.keyword .and) (.arity operandArity args.length) form
    | .keyword .or => do
      if operandArity.accepts args.length then return .logical .or (← ofSexps args)
      else fault (.keyword .or) (.arity operandArity args.length) form
    | .keyword .elseWord => fault (.keyword .elseWord) .misplacedElse form
    | .keyword k =>
      fault (.keyword k) (if k.isCheck then .nestedCheck else .nestedDefinition) form
  | .list (.error e :: _) => .error (.read e)
  | .list (head :: args) =>
    fault .call (.expected .function (.noun head.noun)) (.list (head :: args))

/-- The expressions that several S-expressions stand for, or the first error among them. -/
def ofSexps : List Sexp → Except ExprError (List Expr)
  | [] => .ok []
  | item :: items => do return (← ofSexp item) :: (← ofSexps items)

/-- The clauses that several S-expressions of the given `cond` stand for. A question may be `else`
in the last clause only. -/
def clausesOf (form : Sexp) : List Sexp → Except ExprError Clauses
  | [] => .ok .none
  | .list [.name word, answer] :: rest =>
    match Word.of word with
    | .keyword .elseWord =>
      match rest with
      | [] => do return .otherwise (← ofSexp answer)
      | _ => fault (.keyword .cond) .elseNotLast form
    | _ => do return .clause (← ofWord word) (← ofSexp answer) (← clausesOf form rest)
  | .list [question, answer] :: rest => do
    return .clause (← ofSexp question) (← ofSexp answer) (← clausesOf form rest)
  | .list parts :: _ =>
    fault (.keyword .cond) (.expected .clause (.clauseOf parts.length)) (.list parts)
  | .error e :: _ => .error (.read e)
  | item :: _ => fault (.keyword .cond) (.expected .clause (.noun item.noun)) item

end

end Expr

end Tyro
