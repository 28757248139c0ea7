import Tyro.Proofs.Eval.Ends
import Tyro.Proofs.Store.Writable
import Tyro.Proofs.Text.Line

/-!
# What messages take over

A message takes some texts over from the program as they are: the words in an expression, and the
contents of its strings. `Expr.excerpts` lists them. Everything else in the text of an expression is
fixed, or made of figures, so that the text is on one line exactly if all excerpts are
(`Expr.takes_render`).

Words are tokens, and so they are on one line; of strings nothing is known, since a string may go on
over several lines. `Excerpt.Fits Q` says both, with a property `Q` of strings as a parameter: it is
the invariant of all that a program makes out of fitting expressions.
-/

namespace Tyro

open Text

/-- A text that is taken over as it is. -/
inductive Excerpt where
  | word (text : String)
  | string (content : String)
  deriving DecidableEq, Repr

namespace Excerpt

/-- The text. -/
def text : Excerpt → String
  | .word text => text
  | .string content => content

/-- The content of a string. -/
def string? : Excerpt → Option String
  | .word _ => none
  | .string content => some content

/-- A word is on one line, and a string has the property. -/
def Fits (Q : String → Prop) : Excerpt → Prop
  | .word text => IsLine text
  | .string content => Q content

/-- The strings among several excerpts. -/
def strings (excerpts : List Excerpt) : List String := excerpts.filterMap string?

/-- A string is among the strings if it is an excerpt. -/
theorem mem_strings {excerpts : List Excerpt} {content : String} :
    content ∈ strings excerpts ↔ .string content ∈ excerpts := by
  unfold strings
  rw [List.mem_filterMap]
  constructor
  · rintro ⟨x, mem, is⟩
    cases x with
    | word text => cases is
    | string other =>
      cases is
      exact mem
  · exact fun mem => ⟨_, mem, rfl⟩

/-- Excerpts fit if the words are on one line and the strings have the property. -/
theorem forall_fits_iff {Q : String → Prop} {excerpts : List Excerpt} :
    (∀ x ∈ excerpts, x.Fits Q) ↔
      (∀ word, .word word ∈ excerpts → IsLine word) ∧ ∀ content ∈ strings excerpts, Q content := by
  constructor
  · exact fun fits => ⟨fun word mem => fits _ mem, fun content mem => fits _ (mem_strings.1 mem)⟩
  · rintro ⟨words, strings⟩ x mem
    cases x with
    | word text => exact words text mem
    | string content => exact strings content (mem_strings.2 mem)

/-- Excerpts that fit are on one line exactly if the strings among them are. -/
theorem forall_isLine_iff {Q : String → Prop} {excerpts : List Excerpt}
    (fits : ∀ x ∈ excerpts, x.Fits Q) :
    (∀ x ∈ excerpts, IsLine x.text) ↔ ∀ content ∈ strings excerpts, IsLine content := by
  have words := (forall_fits_iff.1 fits).1
  constructor
  · exact fun lines content mem => lines _ (mem_strings.1 mem)
  · intro lines x mem
    cases x with
    | word text => exact words text mem
    | string content => exact lines content (mem_strings.2 mem)

end Excerpt

/-- The text is put together from the excerpts and from what is on one line anyway: so it is on one
line exactly if all excerpts are. -/
def Takes (s : String) (excerpts : List Excerpt) : Prop := IsLine s ↔ ∀ x ∈ excerpts, IsLine x.text

namespace Takes

variable {s t : String} {xs ys : List Excerpt}

/-- A text on one line takes nothing over. -/
theorem fixed (line : IsLine s) : Takes s [] := iff_of_true line (List.forall_mem_nil _)

/-- An excerpt takes over itself. -/
theorem single (x : Excerpt) : Takes x.text [x] := by
  unfold Takes
  rw [List.forall_mem_singleton]

/-- Two texts take over the excerpts of both. -/
theorem append (first : Takes s xs) (second : Takes t ys) : Takes (s ++ t) (xs ++ ys) := by
  unfold Takes at first second ⊢
  rw [isLine_append, List.forall_mem_append, first, second]

/-- A text on one line may stand before. -/
theorem after (rest : Takes t ys) (line : IsLine s) : Takes (s ++ t) ys := (fixed line).append rest

/-- A text on one line may stand behind. -/
theorem before (first : Takes s xs) (line : IsLine t) : Takes (s ++ t) xs := by
  have both := first.append (fixed line)
  rwa [List.append_nil] at both

section Phrases

variable {cs : List Char} (line : '\n' ∉ cs)
include line

/-- A phrase takes nothing over. -/
theorem phrase : Takes (String.ofList cs) [] := fixed (isLine_ofList line)

/-- A phrase may stand before. -/
theorem afterPhrase (rest : Takes t ys) : Takes (String.ofList cs ++ t) ys :=
  rest.after (isLine_ofList line)

/-- A phrase may stand behind. -/
theorem beforePhrase (first : Takes s xs) : Takes (s ++ String.ofList cs) xs :=
  first.before (isLine_ofList line)

end Phrases

end Takes

/-! ## Excerpts of expressions -/

/-- The excerpt that the expression is by itself, if it is one. -/
def Expr.own : Expr → List Excerpt
  | .string content => [.string content]
  | .name word => [.word word]
  | .template dots => [.word dots]
  | _ => []

mutual

/-- The words and strings in the expression, in source order. -/
def Expr.excerpts : Expr → List Excerpt
  | .string content => [.string content]
  | .number _ => []
  | .boolean _ => []
  | .name word => [.word word]
  | .template dots => [.word dots]
  | .call function args => .word function :: Expr.excerptsOf args
  | .ifElse question yes no => question.excerpts ++ yes.excerpts ++ no.excerpts
  | .cond clauses => clauses.excerpts
  | .logical _ operands => Expr.excerptsOf operands

/-- The words and strings in several expressions. -/
def Expr.excerptsOf : List Expr → List Excerpt
  | [] => []
  | e :: es => e.excerpts ++ Expr.excerptsOf es

/-- The words and strings in the clauses. -/
def Clauses.excerpts : Clauses → List Excerpt
  | .none => []
  | .otherwise answer => answer.excerpts
  | .clause question answer rest => question.excerpts ++ answer.excerpts ++ rest.excerpts

end

/-- The excerpts of several expressions are those of each. -/
theorem Expr.excerptsOf_eq_flatMap (es : List Expr) : excerptsOf es = es.flatMap excerpts := by
  induction es with
  | nil => rfl
  | cons e es ih => rw [excerptsOf, ih, List.flatMap_cons]

/-- The excerpts of clauses are those of their expressions. -/
theorem Clauses.excerpts_eq_flatMap (cs : Clauses) :
    cs.excerpts = cs.exprs.flatMap Expr.excerpts := by
  match cs with
  | .none => rfl
  | .otherwise answer => simp [excerpts, exprs]
  | .clause question answer rest => simp [excerpts, exprs, rest.excerpts_eq_flatMap]

/-- The excerpts of an expression are its own one, or those of its parts. -/
theorem Expr.excerpts_eq (e : Expr) : e.excerpts = e.own ++ e.parts.flatMap excerpts := by
  cases e with
  | call function args => simp [excerpts, own, parts, excerptsOf_eq_flatMap]
  | ifElse question yes no => simp [excerpts, own, parts]
  | cond clauses => simp [excerpts, own, parts, clauses.excerpts_eq_flatMap]
  | logical connective operands => simp [excerpts, own, parts, excerptsOf_eq_flatMap]
  | _ => rfl

/-- The excerpts of a part are excerpts of the whole. -/
theorem Expr.excerpts_subset {e part : Expr} (mem : part ∈ e.parts) :
    part.excerpts ⊆ e.excerpts := by
  intro x inside
  rw [excerpts_eq]
  exact List.mem_append_right _ (List.mem_flatMap.2 ⟨part, mem, inside⟩)

/-! ## The text of an expression -/

/-- The texts of clauses are on one line if those of their expressions are. -/
theorem Clauses.isLine_renderAll_iff (cs : Clauses) :
    (∀ t ∈ cs.renderAll, IsLine t) ↔ ∀ e ∈ cs.exprs, IsLine e.render := by
  have opener : IsLine "[" := by decide
  have other : IsLine "[else " := by decide
  have between : IsLine " " := by decide
  have closer : IsLine "]" := by decide
  match cs with
  | .none => simp [renderAll, exprs]
  | .otherwise answer => simp [renderAll, exprs, other, closer]
  | .clause question answer rest =>
    simp [renderAll, exprs, opener, between, closer, rest.isLine_renderAll_iff, and_assoc]

/-- The text of an expression is on one line if its own excerpt and the texts of its parts are. -/
theorem Expr.isLine_render_parts (e : Expr) :
    IsLine e.render ↔ (∀ x ∈ e.own, IsLine x.text) ∧ ∀ part ∈ e.parts, IsLine part.render := by
  have opener : IsLine "(" := by decide
  have closer : IsLine ")" := by decide
  cases e with
  | string content => simp [render, own, parts, Excerpt.text]
  | number value => simp [render, own, parts]
  | boolean value => simp [render, own, parts]
  | name word => simp [render, own, parts, Excerpt.text]
  | template dots => simp [render, own, parts, Excerpt.text]
  | call function args => simp [render, own, parts, renderAll_eq_map, opener, closer]
  | ifElse question yes no =>
    have head : IsLine "(if" := by decide
    simp [render, own, parts, head, closer]
  | cond clauses =>
    have head : IsLine "(cond" := by decide
    simp [render, own, parts, head, closer, clauses.isLine_renderAll_iff]
  | logical connective operands =>
    simp [render, own, parts, renderAll_eq_map, opener, closer]

/-- **The text of an expression is put together from its excerpts.** -/
theorem Expr.takes_render (e : Expr) : Takes e.render e.excerpts := by
  induction e using induction_parts with
  | step e ih =>
    unfold Takes at ih ⊢
    rw [isLine_render_parts, excerpts_eq, List.forall_mem_append, List.forall_mem_flatMap]
    exact and_congr_right fun _ => forall₂_congr ih

/-! ## Expressions that fit -/

/-- All words in the expression are on one line, and all strings have the property. -/
def Expr.IsPlain (Q : String → Prop) (e : Expr) : Prop := ∀ x ∈ e.excerpts, x.Fits Q

/-- The parts of a plain expression are plain. -/
theorem Expr.IsPlain.part {Q : String → Prop} {e part : Expr} (plain : e.IsPlain Q)
    (mem : part ∈ e.parts) : part.IsPlain Q :=
  fun x inside => plain x (excerpts_subset mem inside)

/-- The words in a printable expression are on one line. -/
theorem Expr.Printable.isLine_of_mem {e : Expr} (printable : e.Printable) :
    ∀ word, .word word ∈ e.excerpts → IsLine word := by
  induction e using induction_parts with
  | step e ih =>
    intro word mem
    rw [excerpts_eq] at mem
    rcases List.mem_append.1 mem with own | inside
    · cases e with
      | name other =>
        cases List.mem_singleton.1 own
        exact isLine_of_isToken printable.1
      | template dots =>
        cases List.mem_singleton.1 own
        exact isLine_of_isToken (Token.isToken_template printable)
      | string content => cases List.mem_singleton.1 own
      | _ => cases own
    · obtain ⟨part, among, inside⟩ := List.mem_flatMap.1 inside
      exact ih part among (printable.parts part among) word inside

/-! ## Computations that may fail -/

/-- The result satisfies `R`, or the error satisfies `F`. -/
def Complies {ε α : Type} (F : ε → Prop) (R : α → Prop) : Except ε α → Prop
  | .ok x => R x
  | .error e => F e

namespace Complies

variable {ε α β : Type} {F : ε → Prop} {R : α → Prop} {R' : β → Prop} {r : Except ε α}

/-- Computations are chained. -/
theorem bind {next : α → Except ε β} (first : Complies F R r)
    (rest : ∀ x, R x → Complies F R' (next x)) : Complies F R' (r >>= next) := by
  cases r with
  | ok x => exact rest x first
  | error e => exact first

/-- Something else is made of the result. -/
theorem map {f : α → β} (first : Complies F R r) (rest : ∀ x, R x → R' (f x)) :
    Complies F R' (r.map f) := by
  cases r with
  | ok x => exact rest x first
  | error e => exact first

/-- The error is put in other words. -/
theorem mapError {δ : Type} {F' : δ → Prop} {f : ε → δ} (first : Complies F R r)
    (rest : ∀ e, F e → F' (f e)) : Complies F' R (r.mapError f) := by
  cases r with
  | ok x => exact first
  | error e => exact rest e first

end Complies

end Tyro
