import Tyro.Proofs.Expr.Parsed
import Tyro.Proofs.Form.Grammar

/-!
# Printing is undone by parsing

* `Form.exprs` lists the expressions that the parser puts into a form: the body of a definition, the
  expression itself, the parts of a test.
* `Form.printable_of_ofSexp` says that all of them are printable if the S-expression is legible, and
  everything that the reader makes of a text is.
* `Form.ofText_render` says that the text of a printable expression is a program of one form, which
  is the expression.

Together they give `Form.ofText_render_of_mem`: whatever expression the parser has made out of a
text, printing it and parsing the result gives it back.
-/

namespace Tyro

/-! ## The expressions of a form -/

/-- The body of the definition, if it has one. -/
def Definition.exprs : Definition → List Expr
  | .constant _ body => [body]
  | .function _ _ body => [body]
  | .struct _ _ => []

/-- The expressions that the form contains, in source order. -/
def Form.exprs : Form → List Expr
  | .definition d => d.exprs
  | .expression e => [e]
  | .check c => c.parts
  | .malformed _ => []

namespace Form

/-- Every expression of a form in the grammar is the S-expression itself or an item of it. -/
theorem denotes_of_mem_exprs {s : Sexp} {form : Form} (h : s.DenotesForm form) {e : Expr}
    (mem : e ∈ form.exprs) :
    ∃ part : Sexp, part.Denotes e ∧ (part = s ∨ ∃ items, s = .list items ∧ part ∈ items) := by
  have item {items : List Sexp} {part : Sexp} (h : part.Denotes e) (inside : part ∈ items) :
      ∃ part' : Sexp, part'.Denotes e ∧
        (part' = .list items ∨ ∃ items', Sexp.list items = .list items' ∧ part' ∈ items') :=
    ⟨part, h, .inr ⟨items, rfl, inside⟩⟩
  cases h with
  | expression h =>
    cases List.mem_singleton.1 mem
    exact ⟨s, h, .inl rfl⟩
  | constant free h | function free nonempty allFree distinct h =>
    cases List.mem_singleton.1 mem
    exact item h (by simp)
  | struct free nonempty allFree distinct => cases mem
  | checkExpect first second =>
    simp only [exprs, Check.parts, List.mem_cons, List.not_mem_nil, or_false] at mem
    rcases mem with rfl | rfl
    · exact item first (by simp)
    · exact item second (by simp)
  | checkWithin first second third =>
    simp only [exprs, Check.parts, List.mem_cons, List.not_mem_nil, or_false] at mem
    rcases mem with rfl | rfl | rfl
    · exact item first (by simp)
    · exact item second (by simp)
    · exact item third (by simp)
  | checkError first =>
    cases List.mem_singleton.1 mem
    exact item first (by simp)
  | checkErrorWith first second =>
    simp only [exprs, Check.parts, Option.toList, List.mem_cons, List.not_mem_nil, or_false] at mem
    rcases mem with rfl | rfl
    · exact item first (by simp)
    · exact item second (by simp)

/-- All expressions of a form in the grammar are printable if the S-expression is legible. -/
theorem printable_of_denotesForm {s : Sexp} {form : Form} (legible : s.Legible)
    (h : s.DenotesForm form) : ∀ e ∈ form.exprs, e.Printable := by
  intro e mem
  obtain ⟨part, denotes, rfl | ⟨items, rfl, inside⟩⟩ := denotes_of_mem_exprs h mem
  · exact Expr.printable_of_denotes legible denotes
  · cases legible with
    | list all => exact Expr.printable_of_denotes (all part inside) denotes

/-- All expressions of a form that is parsed from a legible S-expression are printable. -/
theorem printable_of_ofSexp {s : Sexp} (legible : s.Legible) :
    ∀ e ∈ (ofSexp s).exprs, e.Printable := by
  by_cases malformed : (ofSexp s).IsMalformed
  · cases parsed : ofSexp s with
    | malformed error => exact List.forall_mem_nil _
    | _ =>
      rw [parsed] at malformed
      exact malformed.elim
  · exact printable_of_denotesForm legible (denotesForm_of_ofSexp rfl malformed)

/-! ## Printing and parsing -/

/-- The text of a printable expression is a program of this one expression. -/
theorem ofText_render {e : Expr} (h : e.Printable) : ofText e.render = [.expression e] := by
  have read := (Expr.spells_render e h).ofText
  calc
    ofText e.render = [ofSexp e.toSexp] := ofText_of_read read
    _ = [.expression e] := by rw [ofSexp_of_denotes (Expr.denotes_toSexp e h)]

/-- Every expression that the parser makes out of a text, by itself or inside a definition or a
test, is printed as a text that is parsed as this one expression. -/
theorem ofText_render_of_mem {source : String} {form : Form} (parsed : form ∈ ofText source)
    {e : Expr} (part : e ∈ form.exprs) : ofText e.render = [.expression e] := by
  obtain ⟨d, mem, rfl⟩ := List.mem_map.1 parsed
  exact ofText_render (printable_of_ofSexp (Sexp.legible_ofText mem) e part)

/-- The body of a function that is parsed from a text, with clauses, a template and a string in it,
is printed and parsed again. -/
theorem ofText_render_body :
    let body : Expr :=
      .cond (.clause (.call "even?" [.name "n"]) (.string "a b") (.otherwise (.template "...")))
    ofText "(define (f n) [cond ((even? n) \"a b\") (else (...))])" =
        [.definition (.function "f" ["n"] body)] ∧
      ofText body.render = [.expression body] := by
  have read : (Sexp.ofText "(define (f n) [cond ((even? n) \"a b\") (else (...))])").map (·.sexp) =
      [.list [.name "define", .list [.name "f", .name "n"], .list [.name "cond",
        .list [.list [.name "even?", .name "n"], .string "a b"],
        .list [.name "else", .list [.name "..."]]]]] := by decide +kernel
  have parsed : ofText "(define (f n) [cond ((even? n) \"a b\") (else (...))])" =
      [.definition (.function "f" ["n"] (.cond (.clause (.call "even?" [.name "n"]) (.string "a b")
        (.otherwise (.template "...")))))] := ofText_of_read read
  refine ⟨parsed, ?_⟩
  refine ofText_render_of_mem (parsed.symm ▸ List.mem_cons_self) ?_
  exact List.mem_cons_self

end Form

end Tyro
