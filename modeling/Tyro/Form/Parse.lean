import Tyro.Expr.Parse
import Tyro.Form.Basic
import Tyro.Sexp.Read

/-!
# Parsing forms

`Form.ofSexp` takes an S-expression at the top level to its form. A list that begins with `define`,
`define-struct` or the keyword of a test has to be one; all else has to be an expression. The names
that a definition binds are words that are not reserved; the parameters of a function, and the
fields of a structure, are at least one and pairwise different.
-/

namespace Tyro

namespace Definition

/-- A fault in the shape of a definition, as an error. -/
def fault {α : Type} (owner : Keyword) (fault : FormFault) (form : Sexp) : Except SyntaxError α :=
  .error (.definition ⟨.keyword owner, fault, form⟩)

/-- An expression that is part of a definition. -/
def bodyOf (sexp : Sexp) : Except SyntaxError Expr := (Expr.ofSexp sexp).mapError .body

/-- The name that an S-expression in binding position gives. -/
def boundName (owner : Keyword) (role : NameRole) (form : Sexp) : Sexp → Except SyntaxError String
  | .error e => .error (.body (.read e))
  | .name word =>
    if Word.isReserved word then fault owner (.expected (.name .variable) (.noun .keyword)) form
    else .ok word
  | other => fault owner (.expected (.name role) (.noun other.noun)) form

/-- The names that several S-expressions in binding position give, or the first error. -/
def boundNamesOf (owner : Keyword) (role : NameRole) (form : Sexp) :
    List Sexp → Except SyntaxError (List String)
  | [] => .ok []
  | item :: items => do
    return (← boundName owner role form item) :: (← boundNamesOf owner role form items)

/-- The first name that occurs among the names before it, or among those already seen. -/
def firstRepeated? (seen : List String) : List String → Option String
  | [] => none
  | name :: names => if name ∈ seen then some name else firstRepeated? (name :: seen) names

/-- A list of names is free of repetition exactly if the search finds none. -/
theorem firstRepeated?_eq_none {seen names : List String} :
    firstRepeated? seen names = none ↔ names.Nodup ∧ ∀ name ∈ names, name ∉ seen := by
  induction names generalizing seen with
  | nil => simp [firstRepeated?]
  | cons name names ih =>
    unfold firstRepeated?
    by_cases h : name ∈ seen
    · simp [h]
    · rw [if_neg h, ih]
      simp only [List.nodup_cons, List.mem_cons, forall_eq_or_imp, h, not_false_eq_true, true_and]
      grind

/-- Several names in binding position that have to be different. -/
def distinctNamesOf (owner : Keyword) (role : NameRole) (form : Sexp) (items : List Sexp) :
    Except SyntaxError (List String) := do
  let names ← boundNamesOf owner role form items
  match firstRepeated? [] names with
  | some name => fault owner (.repeated role name) form
  | none => return names

/-- The one expression that ends a `define`. -/
def onlyBodyOf (place : BodyPlace) (form : Sexp) : List Sexp → Except SyntaxError Expr
  | [] => fault .define (.expected (.body place) .nothing) form
  | [body] => bodyOf body
  | _ :: extra => fault .define (.expected (.onlyBody place) (.extra extra.length)) form

/-- The definition that begins with `define`: of a constant if a name follows, of a function if a
list does. -/
def ofDefine (form : Sexp) : List Sexp → Except SyntaxError Definition
  | [] => fault .define (.expected .definable .nothing) form
  | .name word :: rest => do
    let name ← boundName .define .variable form (.name word)
    return .constant name (← onlyBodyOf (.constant name) form rest)
  | .list [] :: _ => fault .define (.expected (.name .function) .nothing) form
  | .list (head :: params) :: rest => do
    let name ← boundName .define .function form head
    if params.isEmpty then fault .define (.expected .parameters .none) form
    else
      let params ← distinctNamesOf .define .variable form params
      return .function name params (← onlyBodyOf .function form rest)
  | .error e :: _ => .error (.body (.read e))
  | other :: _ => fault .define (.expected .definable (.noun other.noun)) form

/-- The definition that begins with `define-struct`. -/
def ofDefineStruct (form : Sexp) : List Sexp → Except SyntaxError Definition
  | [] => fault .defineStruct (.expected (.name .struct) .nothing) form
  | head :: rest => do
    let name ← boundName .defineStruct .struct form head
    match rest with
    | [] => fault .defineStruct (.expected .fields .nothing) form
    | .list [] :: _ => fault .defineStruct (.expected .fields .none) form
    | .list fields :: extra =>
      let fields ← distinctNamesOf .defineStruct .field form fields
      if extra.isEmpty then return .struct name fields
      else fault .defineStruct (.expected .noMoreThanFields (.extra extra.length)) form
    | .error e :: _ => .error (.body (.read e))
    | other :: _ => fault .defineStruct (.expected .fields (.noun other.noun)) form

end Definition

namespace Check

/-- The arguments that a test takes. -/
def arity : Keyword → Arity
  | .checkExpect => .exactly 2
  | .checkWithin => .exactly 3
  | _ => ⟨1, some 2⟩

/-- The test that begins with a keyword. -/
def ofArgs (form : Sexp) (keyword : Keyword) (args : List Sexp) : Except ExprError Check :=
  match keyword, args with
  | .checkExpect, [actual, expected] => do
    return .expect (← Expr.ofSexp actual) (← Expr.ofSexp expected)
  | .checkWithin, [actual, expected, delta] => do
    return .within (← Expr.ofSexp actual) (← Expr.ofSexp expected) (← Expr.ofSexp delta)
  | .checkError, [actual] => do return .error (← Expr.ofSexp actual) none
  | .checkError, [actual, message] => do
    return .error (← Expr.ofSexp actual) (some (← Expr.ofSexp message))
  | _, _ => Expr.fault (.keyword keyword) (.arity (arity keyword) args.length) form

end Check

namespace Form

/-- A parsed definition, or the error in its place. -/
def ofDefinition : Except SyntaxError Definition → Form
  | .ok d => .definition d
  | .error e => .malformed e

/-- A parsed expression, or the error in its place. -/
def ofExpression : Except ExprError Expr → Form
  | .ok e => .expression e
  | .error e => .malformed (.expression e)

/-- A parsed test, or the error in its place. -/
def ofCheck : Except ExprError Check → Form
  | .ok c => .check c
  | .error e => .malformed (.check e)

/-- The form that an S-expression stands for at the top level. -/
def ofSexp (sexp : Sexp) : Form :=
  match sexp with
  | .error e => .malformed (.read e)
  | .list (.name word :: args) =>
    match Word.of word with
    | .keyword .define => ofDefinition (Definition.ofDefine sexp args)
    | .keyword .defineStruct => ofDefinition (Definition.ofDefineStruct sexp args)
    | .keyword k =>
      if k.isCheck then ofCheck (Check.ofArgs sexp k args) else ofExpression (Expr.ofSexp sexp)
    | _ => ofExpression (Expr.ofSexp sexp)
  | _ => ofExpression (Expr.ofSexp sexp)

/-- The forms of a program text. -/
def ofText (source : String) : List Form := (Sexp.ofText source).map fun d => ofSexp d.sexp

/-- The forms of a text are those of the S-expressions that are read from it. -/
theorem ofText_of_read {source : String} {items : List Sexp}
    (read : (Sexp.ofText source).map (·.sexp) = items) : ofText source = items.map ofSexp := by
  rw [← read, List.map_map]
  rfl

end Form

/-- Whether the rendered expression is read back as the expression alone. -/
def Expr.rereads (e : Expr) : Bool :=
  match Form.ofText e.render with
  | [.expression again] => again.alike e
  | _ => false

end Tyro
