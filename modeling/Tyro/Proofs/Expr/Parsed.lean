import Tyro.Proofs.Expr.Printable
import Tyro.Proofs.Sexp.Legible

/-!
# Expressions that are parsed

The parser makes nothing that could not be printed: from what the reader gives, it only makes
printable expressions (`Expr.printable_of_denotes`). The proof follows the grammar, and every
condition in it becomes one part of the invariant: a word that is no keyword and no template can be
bound, `cond` has a clause, `and` and `or` have two operands.
-/

namespace Tyro

open Token

/-- There is one expression for each S-expression. -/
theorem Sexp.DenoteAll.length_eq {items : List Sexp} {es : List Expr} :
    Sexp.DenoteAll items es → es.length = items.length
  | .nil => rfl
  | .cons _ rest => congrArg (· + 1) rest.length_eq

/-- Some S-expressions are some clauses. -/
theorem Sexp.DenoteClauses.ne_none {items : List Sexp} {cs : Clauses} (nonempty : items ≠ [])
    (h : Sexp.DenoteClauses items cs) : cs ≠ .none := by
  rintro rfl
  cases h
  exact nonempty rfl

mutual

/-- A legible S-expression is only a printable expression. -/
theorem Expr.printable_of_denotes {s : Sexp} {e : Expr} (legible : s.Legible)
    (h : s.Denotes e) : e.Printable := by
  cases h with
  | string content =>
    cases legible with
    | string unquoted => exact unquoted
  | number value =>
    cases legible with
    | number finite => exact finite
  | boolean value => trivial
  | name free =>
    cases legible with
    | name token => exact ⟨token, Word.of_eq_free_iff.2 free⟩
  | template unfinished => exact unfinished
  | templateHead unfinished anything => exact unfinished
  | call free all =>
    cases legible with
    | list parts =>
      obtain ⟨head, args⟩ := List.forall_mem_cons.1 parts
      cases head with
      | name token =>
        exact ⟨⟨token, Word.of_eq_free_iff.2 free⟩, Expr.printable_of_denoteAll args all⟩
  | ifElse asked first second =>
    cases legible with
    | list parts =>
      obtain ⟨-, parts⟩ := List.forall_mem_cons.1 parts
      obtain ⟨hq, parts⟩ := List.forall_mem_cons.1 parts
      obtain ⟨hy, parts⟩ := List.forall_mem_cons.1 parts
      obtain ⟨hn, -⟩ := List.forall_mem_cons.1 parts
      exact ⟨Expr.printable_of_denotes hq asked, Expr.printable_of_denotes hy first,
        Expr.printable_of_denotes hn second⟩
  | cond nonempty all =>
    cases legible with
    | list parts =>
      obtain ⟨-, items⟩ := List.forall_mem_cons.1 parts
      exact ⟨all.ne_none nonempty, Clauses.printable_of_denoteClauses items all⟩
  | logical connective two all =>
    cases legible with
    | list parts =>
      obtain ⟨-, items⟩ := List.forall_mem_cons.1 parts
      exact ⟨all.length_eq ▸ two, Expr.printable_of_denoteAll items all⟩

/-- Legible S-expressions are only printable expressions. -/
theorem Expr.printable_of_denoteAll {items : List Sexp} {es : List Expr}
    (legible : ∀ item ∈ items, item.Legible) (h : Sexp.DenoteAll items es) :
    Expr.AllPrintable es := by
  cases h with
  | nil => trivial
  | cons first rest =>
    obtain ⟨here, later⟩ := List.forall_mem_cons.1 legible
    exact ⟨Expr.printable_of_denotes here first, Expr.printable_of_denoteAll later rest⟩

/-- Legible S-expressions are only printable clauses. -/
theorem Clauses.printable_of_denoteClauses {items : List Sexp} {cs : Clauses}
    (legible : ∀ item ∈ items, item.Legible) (h : Sexp.DenoteClauses items cs) :
    cs.Printable := by
  cases h with
  | none => trivial
  | otherwise answered =>
    obtain ⟨clause, -⟩ := List.forall_mem_cons.1 legible
    cases clause with
    | list parts =>
      obtain ⟨-, parts⟩ := List.forall_mem_cons.1 parts
      exact Expr.printable_of_denotes (parts _ List.mem_cons_self) answered
  | clause asked answered rest =>
    obtain ⟨clause, later⟩ := List.forall_mem_cons.1 legible
    cases clause with
    | list parts =>
      obtain ⟨hq, parts⟩ := List.forall_mem_cons.1 parts
      exact ⟨Expr.printable_of_denotes hq asked,
        Expr.printable_of_denotes (parts _ List.mem_cons_self) answered,
        Clauses.printable_of_denoteClauses later rest⟩

end

end Tyro
