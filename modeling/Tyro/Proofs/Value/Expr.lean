import Tyro.Proofs.Expr.Printable
import Tyro.Value.Basic

/-!
# Values as expressions

A value is printed as an expression: an atom as itself, a structure as the call that makes it, and
a function as its name. `Value.toExpr` is this expression, and `Value.render_toExpr` says that its
text is that of the value. Whether the expression has the value again depends on what the names in
it are bound to.
-/

namespace Tyro.Value

/-- The second value is the first, or is inside it as a field of a structure. -/
inductive Contains : Value → Value → Prop
  | self (v : Value) : Contains v v
  | field {type : StructType} {fields : List Value} {v part : Value} (mem : v ∈ fields)
    (inside : Contains v part) : Contains (.struct type fields) part

/-- All numbers inside the value are finite. -/
def IsFinite (v : Value) : Prop := ∀ x, v.Contains (.number x) → Number.IsFinite x

/-- The fields of a structure have finite numbers if the structure has. -/
theorem IsFinite.field {type : StructType} {fields : List Value}
    (h : (struct type fields).IsFinite) {v : Value} (mem : v ∈ fields) : v.IsFinite :=
  fun x inside => h x (.field mem inside)

mutual

/-- The expression that the value is printed as. -/
def toExpr : Value → Expr
  | .string content => .string content
  | .number value => .number value
  | .boolean value => .boolean value
  | .struct type fields => .call (constructorName type.name) (toExprs fields)
  | .builtin function => .name function.name
  | .closure function => .name function.name
  | .constructor type => .name (constructorName type.name)
  | .accessor type index => .name (accessorName type.name (type.field index))
  | .predicate type => .name (predicateName type.name)

/-- The expressions that several values are printed as. -/
def toExprs : List Value → List Expr
  | [] => []
  | v :: vs => v.toExpr :: toExprs vs

end

mutual

/-- The text of the expression is the text of the value. -/
theorem render_toExpr (v : Value) : v.toExpr.render = v.render := by
  cases v with
  | struct type fields => rw [toExpr, Expr.render, render, renderAll_toExprs fields]
  | _ => rw [toExpr, Expr.render, render]

/-- The texts of the expressions are the texts of the values. -/
theorem renderAll_toExprs (vs : List Value) : Expr.renderAll (toExprs vs) = renderAll vs := by
  cases vs with
  | nil => rw [toExprs, Expr.renderAll, renderAll]
  | cons v vs => rw [toExprs, Expr.renderAll, renderAll, render_toExpr v, renderAll_toExprs vs]

end

end Tyro.Value
