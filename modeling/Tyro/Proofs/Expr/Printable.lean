import Tyro.Proofs.Expr.Grammar
import Tyro.Proofs.Number.RoundTrip
import Tyro.Proofs.Sexp.Spell

/-!
# Expressions that can be printed and parsed again

* `Expr.Printable` is the invariant of the expressions that have a text of their own: names that can
  be bound, strings without a double quote, finite numbers, templates of the right length, at least
  one clause after `cond` and at least two operands after `and` and `or`.
* `Expr.toSexp` is the S-expression that an expression is parsed from, and `Expr.denotes_toSexp`
  says that it is the expression in the grammar.
* `Expr.spells_render` says that the rendered expression spells that S-expression.

The three follow the constructors of expressions, with one statement for each of the types involved:
expressions, lists of them, and clauses.
-/

namespace Tyro

open Token

/-- The word is one token and free to be the name of a variable. -/
def Word.IsVariable (word : String) : Prop :=
  IsToken .name word.toList ∧ Word.of word = .free

mutual

/-- The expression has a text that is parsed as it. -/
def Expr.Printable : Expr → Prop
  | .string content => '\x22' ∉ content.toList
  | .number value => Number.IsFinite value
  | .boolean _ => True
  | .name word => Word.IsVariable word
  | .template dots => dots ∈ templates
  | .call function args => Word.IsVariable function ∧ Expr.AllPrintable args
  | .ifElse question yes no => question.Printable ∧ yes.Printable ∧ no.Printable
  | .cond clauses => clauses ≠ .none ∧ clauses.Printable
  | .logical _ operands => 2 ≤ operands.length ∧ Expr.AllPrintable operands

/-- All expressions of a list are printable. -/
def Expr.AllPrintable : List Expr → Prop
  | [] => True
  | e :: es => e.Printable ∧ Expr.AllPrintable es

/-- All expressions of the clauses are printable. -/
def Clauses.Printable : Clauses → Prop
  | .none => True
  | .otherwise answer => answer.Printable
  | .clause question answer rest => question.Printable ∧ answer.Printable ∧ rest.Printable

end

mutual

/-- The S-expression that the expression is parsed from. -/
def Expr.toSexp : Expr → Sexp
  | .string content => .string content
  | .number value => .number value
  | .boolean value => .boolean value
  | .name word => .name word
  | .template dots => .name dots
  | .call function args => .list (.name function :: Expr.toSexps args)
  | .ifElse question yes no =>
    .list [.name Keyword.ifWord.text, question.toSexp, yes.toSexp, no.toSexp]
  | .cond clauses => .list (.name Keyword.cond.text :: clauses.toSexps)
  | .logical connective operands =>
    .list (.name connective.keyword.text :: Expr.toSexps operands)

/-- The S-expressions that several expressions are parsed from. -/
def Expr.toSexps : List Expr → List Sexp
  | [] => []
  | e :: es => e.toSexp :: Expr.toSexps es

/-- The S-expressions that the clauses are parsed from. -/
def Clauses.toSexps : Clauses → List Sexp
  | .none => []
  | .otherwise answer => [.list [.name Keyword.elseWord.text, answer.toSexp]]
  | .clause question answer rest => .list [question.toSexp, answer.toSexp] :: rest.toSexps

end

/-! ## Parsing -/

/-- There is one S-expression for each expression. -/
theorem Expr.length_toSexps (es : List Expr) : (toSexps es).length = es.length := by
  induction es with
  | nil => rfl
  | cons e es ih => rw [toSexps, List.length_cons, List.length_cons, ih]

/-- Some clauses are made of some S-expressions. -/
theorem Clauses.toSexps_ne_nil {cs : Clauses} (h : cs ≠ .none) : cs.toSexps ≠ [] := by
  cases cs with
  | none => exact absurd rfl h
  | otherwise answer => nofun
  | clause question answer rest => nofun

mutual

/-- The S-expression of a printable expression is the expression, as the grammar has it. -/
theorem Expr.denotes_toSexp (e : Expr) (h : e.Printable) : e.toSexp.Denotes e := by
  cases e with
  | string content => exact .string content
  | number value => exact .number value
  | boolean value => exact .boolean value
  | name word => exact .name (Word.of_eq_free_iff.1 h.2)
  | template dots => exact .template h
  | call function args =>
    obtain ⟨⟨-, free⟩, all⟩ := h
    exact .call (Word.of_eq_free_iff.1 free) (Expr.denoteAll_toSexps args all)
  | ifElse question yes no =>
    obtain ⟨hq, hy, hn⟩ := h
    exact .ifElse (Expr.denotes_toSexp question hq) (Expr.denotes_toSexp yes hy)
      (Expr.denotes_toSexp no hn)
  | cond clauses =>
    obtain ⟨nonempty, all⟩ := h
    exact .cond (Clauses.toSexps_ne_nil nonempty) (Clauses.denoteClauses_toSexps clauses all)
  | logical connective operands =>
    obtain ⟨two, all⟩ := h
    refine .logical connective ?_ (Expr.denoteAll_toSexps operands all)
    rwa [Expr.length_toSexps]

/-- The S-expressions of printable expressions are the expressions. -/
theorem Expr.denoteAll_toSexps (es : List Expr) (h : Expr.AllPrintable es) :
    Sexp.DenoteAll (Expr.toSexps es) es := by
  cases es with
  | nil => exact .nil
  | cons e es => exact .cons (Expr.denotes_toSexp e h.1) (Expr.denoteAll_toSexps es h.2)

/-- The S-expressions of printable clauses are the clauses. -/
theorem Clauses.denoteClauses_toSexps (cs : Clauses) (h : cs.Printable) :
    Sexp.DenoteClauses cs.toSexps cs := by
  cases cs with
  | none => exact .none
  | otherwise answer => exact .otherwise (Expr.denotes_toSexp answer h)
  | clause question answer rest =>
    obtain ⟨hq, ha, hr⟩ := h
    exact .clause (Expr.denotes_toSexp question hq) (Expr.denotes_toSexp answer ha)
      (Clauses.denoteClauses_toSexps rest hr)

end

/-! ## Rendering -/

namespace Sexp

/-- Each text spells the S-expression in its place. -/
inductive SpellAll : List String → List Sexp → Prop
  | nil : SpellAll [] []
  | cons {text : String} {item : Sexp} {texts : List String} {items : List Sexp}
    (first : Spells text.toList item) (rest : SpellAll texts items) :
    SpellAll (text :: texts) (item :: items)

/-- Texts that each stand after a space spell what they spell alone. -/
theorem SpellAll.spaced {texts : List String} {items : List Sexp} (h : SpellAll texts items) :
    SpellsItems (spaced texts).toList items := by
  induction h with
  | nil => exact spellsItems_nil
  | @cons text item texts items first _ ih =>
    rw [toList_spaced_cons]
    exact first.space_cons ih (stops_spaced texts)

/-- A word and texts after it, between round brackets, spell a list. -/
theorem spells_form {word : String} (head : Spells word.toList (.name word)) {texts : List String}
    {items : List Sexp} (h : SpellAll texts items) :
    Spells ("(" ++ word ++ spaced texts ++ ")").toList (.list (.name word :: items)) := by
  have inside := head.cons h.spaced (stops_spaced texts)
  have whole := inside.list .round
  simpa [Bracket.opener, Bracket.closer] using whole

/-- Two texts with a space between them, between square brackets, spell a list of two. -/
theorem spells_pair {first second : String} {s t : Sexp} (hs : Spells first.toList s)
    (ht : Spells second.toList t) :
    Spells ("[" ++ first ++ " " ++ second ++ "]").toList (.list [s, t]) := by
  have last := ht.space_cons spellsItems_nil stops_nil
  have inside := hs.cons last (stops_space _)
  have whole := inside.list .square
  simpa [Bracket.opener, Bracket.closer] using whole

/-- A name token spells the name. -/
theorem spells_name {word : String} (token : IsToken .name word.toList) :
    Spells word.toList (.name word) := by
  refine spells_atom token (.inr (.inr (.inl rfl))) fun span => ?_
  rw [String.ofList_toList]
  rfl

/-- The text of a keyword spells it. -/
theorem spells_keyword (k : Keyword) : Spells k.text.toList (.name k.text) :=
  spells_name (isToken_keyword k)

/-- A content without double quotes is spelled by its text. -/
theorem spells_string {content : String} (unquoted : '\x22' ∉ content.toList) :
    Spells (quotedText content).toList (.string content) := by
  have text : (quotedText content).toList = '\x22' :: (content.toList ++ ['\x22']) := by
    simp [quotedText]
  rw [text]
  refine spells_atom (isToken_string unquoted) (.inr (.inl rfl)) fun span => ?_
  simp [Reader.atom]

/-- A finite number is spelled by its text. -/
theorem spells_number {value : Float} (finite : Number.IsFinite value) :
    Spells (Number.text value).toList (.number value) := by
  rw [Number.text, String.toList_ofList]
  refine spells_atom (Number.isToken_chars finite) (.inl rfl) fun span => ?_
  simp only [Reader.atom, String.toList_ofList, Number.read?_chars finite]

/-- A boolean is spelled by its text. -/
theorem spells_boolean (value : Bool) :
    Spells (booleanText value).toList (.boolean value) := by
  refine spells_atom (isToken_booleanText value) (.inr (.inr (.inr rfl))) fun span => ?_
  cases value <;> rfl

end Sexp

open Sexp

mutual

/-- A printable expression is rendered as a text that spells its S-expression. -/
theorem Expr.spells_render (e : Expr) (h : e.Printable) : Spells e.render.toList e.toSexp := by
  cases e with
  | string content => exact spells_string h
  | number value => exact spells_number h
  | boolean value => exact spells_boolean value
  | name word => exact spells_name h.1
  | template dots => exact spells_name (isToken_template h)
  | call function args =>
    obtain ⟨⟨token, -⟩, all⟩ := h
    exact spells_form (spells_name token) (Expr.spells_renderAll args all)
  | ifElse question yes no =>
    obtain ⟨hq, hy, hn⟩ := h
    have parts : SpellAll [question.render, yes.render, no.render]
        [question.toSexp, yes.toSexp, no.toSexp] :=
      .cons (Expr.spells_render question hq)
        (.cons (Expr.spells_render yes hy) (.cons (Expr.spells_render no hn) .nil))
    exact spells_form (spells_keyword .ifWord) parts
  | cond clauses => exact spells_form (spells_keyword .cond) (Clauses.spells_renderAll clauses h.2)
  | logical connective operands =>
    exact spells_form (spells_keyword connective.keyword) (Expr.spells_renderAll operands h.2)

/-- Printable expressions are rendered as texts that spell their S-expressions. -/
theorem Expr.spells_renderAll (es : List Expr) (h : Expr.AllPrintable es) :
    SpellAll (Expr.renderAll es) (Expr.toSexps es) := by
  cases es with
  | nil => exact .nil
  | cons e es => exact .cons (Expr.spells_render e h.1) (Expr.spells_renderAll es h.2)

/-- Printable clauses are rendered as texts that spell their S-expressions. -/
theorem Clauses.spells_renderAll (cs : Clauses) (h : cs.Printable) :
    SpellAll cs.renderAll cs.toSexps := by
  cases cs with
  | none => exact .nil
  | otherwise answer =>
    have text := spells_pair (spells_keyword .elseWord) (Expr.spells_render answer h)
    exact .cons text .nil
  | clause question answer rest =>
    obtain ⟨hq, ha, hr⟩ := h
    have text := spells_pair (Expr.spells_render question hq) (Expr.spells_render answer ha)
    exact .cons text (Clauses.spells_renderAll rest hr)

end

end Tyro
