import Tyro.Form.Parse
import Tyro.Proofs.Expr.Grammar

/-!
# The grammar of forms

`Sexp.DenotesForm` is the grammar of what may stand at the top level of a program: expressions,
definitions and tests. For each function of the parser there is one lemma that says when it succeeds
and with what: the names that a definition binds, its body, the definition, the arguments of a test.
From these, `Form.denotesForm_of_ofSexp` and `Form.ofSexp_of_denotesForm` say that the parser
accepts just what the grammar has, and `parser_accepts_grammar` puts forms and expressions together.
-/

namespace Tyro

/-! ## The grammar -/

/-- The S-expression is the form, written as the grammar of the language wants it at the top
level. -/
inductive Sexp.DenotesForm : Sexp → Form → Prop
  | expression {s : Sexp} {e : Expr} (h : s.Denotes e) : DenotesForm s (.expression e)
  | constant {name : String} {body : Sexp} {e : Expr} (free : Word.IsFree name)
    (h : body.Denotes e) :
    DenotesForm (.list [.name "define", .name name, body]) (.definition (.constant name e))
  | function {name : String} {params : List String} {body : Sexp} {e : Expr}
    (free : Word.IsFree name) (nonempty : params ≠ []) (allFree : ∀ p ∈ params, Word.IsFree p)
    (distinct : params.Nodup) (h : body.Denotes e) :
    DenotesForm (.list [.name "define", .list (.name name :: params.map .name), body])
      (.definition (.function name params e))
  | struct {name : String} {fields : List String} (free : Word.IsFree name) (nonempty : fields ≠ [])
    (allFree : ∀ f ∈ fields, Word.IsFree f) (distinct : fields.Nodup) :
    DenotesForm (.list [.name "define-struct", .name name, .list (fields.map .name)])
      (.definition (.struct name fields))
  | checkExpect {actual expected : Sexp} {a x : Expr} (first : actual.Denotes a)
    (second : expected.Denotes x) :
    DenotesForm (.list [.name "check-expect", actual, expected]) (.check (.expect a x))
  | checkWithin {actual expected delta : Sexp} {a x d : Expr} (first : actual.Denotes a)
    (second : expected.Denotes x) (third : delta.Denotes d) :
    DenotesForm (.list [.name "check-within", actual, expected, delta]) (.check (.within a x d))
  | checkError {actual : Sexp} {a : Expr} (first : actual.Denotes a) :
    DenotesForm (.list [.name "check-error", actual]) (.check (.error a none))
  | checkErrorWith {actual message : Sexp} {a m : Expr} (first : actual.Denotes a)
    (second : message.Denotes m) :
    DenotesForm (.list [.name "check-error", actual, message]) (.check (.error a (some m)))

/-! ## Names and bodies -/

/-- The words that cannot be bound are those that are not free. -/
theorem Word.isReserved_eq_false_iff {word : String} : isReserved word = false ↔ IsFree word := by
  rw [← of_eq_free_iff]
  simp [isReserved]

namespace Definition

variable {owner : Keyword} {role : NameRole} {form : Sexp}

/-- A name in binding position is a free word. -/
theorem boundName_eq_ok_iff {s : Sexp} {name : String} :
    boundName owner role form s = .ok name ↔ s = .name name ∧ Word.IsFree name := by
  cases s with
  | name word =>
    rw [boundName]
    cases reserved : Word.isReserved word with
    | true =>
      refine iff_of_false nofun ?_
      rintro ⟨⟨⟩, free⟩
      rw [Word.isReserved_eq_false_iff.2 free] at reserved
      cases reserved
    | false =>
      constructor
      · rintro ⟨⟩
        exact ⟨rfl, Word.isReserved_eq_false_iff.1 reserved⟩
      · rintro ⟨⟨⟩, -⟩
        rfl
  | _ => exact iff_of_false nofun (fun h => by cases h.1)

/-- Names in binding position are free words. -/
theorem boundNamesOf_eq_ok_iff {items : List Sexp} {names : List String} :
    boundNamesOf owner role form items = .ok names ↔
      items = names.map .name ∧ ∀ name ∈ names, Word.IsFree name := by
  induction items generalizing names with
  | nil =>
    rw [boundNamesOf]
    constructor
    · rintro ⟨⟩
      exact ⟨rfl, List.forall_mem_nil _⟩
    · rintro ⟨same, -⟩
      rw [List.map_eq_nil_iff.1 same.symm]
  | cons item items ih =>
    rw [boundNamesOf]
    constructor
    · intro h
      obtain ⟨name, first, h⟩ := bind_eq_ok_iff.1 h
      obtain ⟨rest, others, built⟩ := bind_eq_ok_iff.1 h
      cases built
      obtain ⟨rfl, free⟩ := boundName_eq_ok_iff.1 first
      obtain ⟨rfl, allFree⟩ := ih.1 others
      exact ⟨rfl, List.forall_mem_cons.2 ⟨free, allFree⟩⟩
    · rintro ⟨same, allFree⟩
      cases names with
      | nil => cases same
      | cons name names =>
        obtain ⟨free, others⟩ := List.forall_mem_cons.1 allFree
        cases same
        rw [boundName_eq_ok_iff.2 ⟨rfl, free⟩, ih.2 ⟨rfl, others⟩]
        rfl

/-- Names that have to be different are different free words. -/
theorem distinctNamesOf_eq_ok_iff {items : List Sexp} {names : List String} :
    distinctNamesOf owner role form items = .ok names ↔
      items = names.map .name ∧ (∀ name ∈ names, Word.IsFree name) ∧ names.Nodup := by
  unfold distinctNamesOf
  constructor
  · intro h
    obtain ⟨found, bound, h⟩ := bind_eq_ok_iff.1 h
    obtain ⟨same, allFree⟩ := boundNamesOf_eq_ok_iff.1 bound
    split at h
    · cases h
    · next unrepeated =>
      cases h
      exact ⟨same, allFree, (firstRepeated?_eq_none.1 unrepeated).1⟩
  · rintro ⟨rfl, allFree, distinct⟩
    have unrepeated : firstRepeated? [] names = none :=
      firstRepeated?_eq_none.2 ⟨distinct, fun _ _ => List.not_mem_nil⟩
    refine bind_eq_ok_iff.2 ⟨names, boundNamesOf_eq_ok_iff.2 ⟨rfl, allFree⟩, ?_⟩
    simp only [unrepeated]
    rfl

/-- An expression that is part of a definition is one of the grammar. -/
theorem bodyOf_eq_ok_iff {s : Sexp} {e : Expr} : bodyOf s = .ok e ↔ s.Denotes e := by
  rw [← Expr.ofSexp_eq_ok_iff, bodyOf]
  cases Expr.ofSexp s with
  | error error => exact iff_of_false nofun nofun
  | ok e' => exact ⟨fun h => by cases h; rfl, fun h => by cases h; rfl⟩

/-- The end of a `define` is one expression. -/
theorem onlyBodyOf_eq_ok_iff {place : BodyPlace} {items : List Sexp} {e : Expr} :
    onlyBodyOf place form items = .ok e ↔ ∃ body, items = [body] ∧ body.Denotes e := by
  match items with
  | [] => exact iff_of_false nofun (by rintro ⟨body, ⟨⟩, -⟩)
  | [body] =>
    rw [onlyBodyOf, bodyOf_eq_ok_iff]
    constructor
    · exact fun h => ⟨body, rfl, h⟩
    · rintro ⟨other, ⟨⟩, h⟩
      exact h
  | _ :: _ :: _ => exact iff_of_false nofun (by rintro ⟨body, ⟨⟩, -⟩)

/-! ## Definitions -/

/-- The definition of a constant is parsed. -/
theorem ofDefine_constant {name : String} {body : Sexp} {e : Expr} (free : Word.IsFree name)
    (h : body.Denotes e) : ofDefine form [.name name, body] = .ok (.constant name e) := by
  refine bind_eq_ok_iff.2 ⟨_, boundName_eq_ok_iff.2 ⟨rfl, free⟩, ?_⟩
  exact bind_eq_ok_iff.2 ⟨_, onlyBodyOf_eq_ok_iff.2 ⟨_, rfl, h⟩, rfl⟩

/-- The definition of a function is parsed. -/
theorem ofDefine_function {name : String} {params : List String} {body : Sexp} {e : Expr}
    (free : Word.IsFree name) (nonempty : params ≠ []) (allFree : ∀ p ∈ params, Word.IsFree p)
    (distinct : params.Nodup) (h : body.Denotes e) :
    ofDefine form [.list (.name name :: params.map .name), body] =
      .ok (.function name params e) := by
  have nonempty : (params.map Sexp.name).isEmpty = false := by
    cases params with
    | nil => exact absurd rfl nonempty
    | cons p ps => rfl
  refine bind_eq_ok_iff.2 ⟨_, boundName_eq_ok_iff.2 ⟨rfl, free⟩, ?_⟩
  rw [nonempty]
  refine bind_eq_ok_iff.2 ⟨_, distinctNamesOf_eq_ok_iff.2 ⟨rfl, allFree, distinct⟩, ?_⟩
  exact bind_eq_ok_iff.2 ⟨_, onlyBodyOf_eq_ok_iff.2 ⟨_, rfl, h⟩, rfl⟩

/-- The definition of a structure is parsed. -/
theorem ofDefineStruct_struct {name : String} {fields : List String} (free : Word.IsFree name)
    (nonempty : fields ≠ []) (allFree : ∀ f ∈ fields, Word.IsFree f) (distinct : fields.Nodup) :
    ofDefineStruct form [.name name, .list (fields.map .name)] = .ok (.struct name fields) := by
  obtain ⟨first, rest, rfl⟩ := List.exists_cons_of_ne_nil nonempty
  refine bind_eq_ok_iff.2 ⟨_, boundName_eq_ok_iff.2 ⟨rfl, free⟩, ?_⟩
  exact bind_eq_ok_iff.2 ⟨_, distinctNamesOf_eq_ok_iff.2 ⟨rfl, allFree, distinct⟩, rfl⟩

/-- What is parsed as a `define` is in the grammar. -/
theorem denotesForm_of_ofDefine {args : List Sexp} {d : Definition}
    (h : ofDefine form args = .ok d) :
    (Sexp.list (.name "define" :: args)).DenotesForm (.definition d) := by
  unfold ofDefine at h
  split at h
  · cases h
  · next word rest =>
    obtain ⟨name, bound, h⟩ := bind_eq_ok_iff.1 h
    obtain ⟨e, ended, built⟩ := bind_eq_ok_iff.1 h
    obtain ⟨sameName, free⟩ := boundName_eq_ok_iff.1 bound
    obtain ⟨body, sameRest, parsed⟩ := onlyBodyOf_eq_ok_iff.1 ended
    cases built
    rw [sameName, sameRest]
    exact .constant free parsed
  · cases h
  · next head params rest =>
    obtain ⟨name, bound, h⟩ := bind_eq_ok_iff.1 h
    obtain ⟨sameName, free⟩ := boundName_eq_ok_iff.1 bound
    split at h
    · cases h
    · next nonempty =>
      obtain ⟨names, named, h⟩ := bind_eq_ok_iff.1 h
      obtain ⟨e, ended, built⟩ := bind_eq_ok_iff.1 h
      obtain ⟨sameParams, allFree, distinct⟩ := distinctNamesOf_eq_ok_iff.1 named
      obtain ⟨body, sameRest, parsed⟩ := onlyBodyOf_eq_ok_iff.1 ended
      cases built
      rw [sameParams, List.isEmpty_map, List.isEmpty_iff] at nonempty
      rw [sameName, sameParams, sameRest]
      exact .function free nonempty allFree distinct parsed
  · cases h
  · cases h

/-- What is parsed as a `define-struct` is in the grammar. -/
theorem denotesForm_of_ofDefineStruct {args : List Sexp} {d : Definition}
    (h : ofDefineStruct form args = .ok d) :
    (Sexp.list (.name "define-struct" :: args)).DenotesForm (.definition d) := by
  unfold ofDefineStruct at h
  split at h
  · cases h
  · next head rest =>
    obtain ⟨name, bound, h⟩ := bind_eq_ok_iff.1 h
    obtain ⟨sameName, free⟩ := boundName_eq_ok_iff.1 bound
    split at h
    · cases h
    · cases h
    · next fields extra nonempty _ =>
      obtain ⟨names, named, h⟩ := bind_eq_ok_iff.1 h
      obtain ⟨sameFields, allFree, distinct⟩ := distinctNamesOf_eq_ok_iff.1 named
      split at h
      · next nothing =>
        cases h
        rw [sameName, sameFields, List.isEmpty_iff.1 nothing]
        refine .struct free ?_ allFree distinct
        rintro rfl
        exact nonempty sameFields
      · cases h
    · cases h
    · cases h

end Definition

/-- What is parsed as a test is in the grammar. -/
theorem Check.denotesForm_of_ofArgs {form : Sexp} {k : Keyword} {args : List Sexp} {c : Check}
    (h : Check.ofArgs form k args = .ok c) :
    (Sexp.list (.name k.text :: args)).DenotesForm (.check c) := by
  unfold ofArgs at h
  split at h
  · obtain ⟨a, first, h⟩ := bind_eq_ok_iff.1 h
    obtain ⟨x, second, built⟩ := bind_eq_ok_iff.1 h
    cases built
    exact .checkExpect (Expr.denotes_of_ofSexp first) (Expr.denotes_of_ofSexp second)
  · obtain ⟨a, first, h⟩ := bind_eq_ok_iff.1 h
    obtain ⟨x, second, h⟩ := bind_eq_ok_iff.1 h
    obtain ⟨d, third, built⟩ := bind_eq_ok_iff.1 h
    cases built
    exact .checkWithin (Expr.denotes_of_ofSexp first) (Expr.denotes_of_ofSexp second)
      (Expr.denotes_of_ofSexp third)
  · obtain ⟨a, first, built⟩ := bind_eq_ok_iff.1 h
    cases built
    exact .checkError (Expr.denotes_of_ofSexp first)
  · obtain ⟨a, first, h⟩ := bind_eq_ok_iff.1 h
    obtain ⟨m, second, built⟩ := bind_eq_ok_iff.1 h
    cases built
    exact .checkErrorWith (Expr.denotes_of_ofSexp first) (Expr.denotes_of_ofSexp second)
  · cases h

namespace Form

/-- The form has a fault in it. -/
def IsMalformed : Form → Prop
  | .malformed _ => True
  | _ => False

/-! ## What the parser accepts is in the grammar -/

/-- A definition that is parsed without a fault is the one that was parsed. -/
theorem of_ofDefinition {parsed : Except SyntaxError Definition}
    (accepted : ¬ (ofDefinition parsed).IsMalformed) :
    ∃ d, parsed = .ok d ∧ ofDefinition parsed = .definition d := by
  cases parsed with
  | error error => exact absurd trivial accepted
  | ok d => exact ⟨d, rfl, rfl⟩

/-- A test that is parsed without a fault is the one that was parsed. -/
theorem of_ofCheck {parsed : Except ExprError Check}
    (accepted : ¬ (ofCheck parsed).IsMalformed) :
    ∃ c, parsed = .ok c ∧ ofCheck parsed = .check c := by
  cases parsed with
  | error error => exact absurd trivial accepted
  | ok c => exact ⟨c, rfl, rfl⟩

/-- What is parsed as an expression without a fault is in the grammar. -/
theorem denotesForm_of_ofExpression {s : Sexp}
    (accepted : ¬ (ofExpression (Expr.ofSexp s)).IsMalformed) :
    s.DenotesForm (ofExpression (Expr.ofSexp s)) := by
  cases parsed : Expr.ofSexp s with
  | error error =>
    rw [parsed] at accepted
    exact absurd trivial accepted
  | ok e => exact .expression (Expr.denotes_of_ofSexp parsed)

/-- What is parsed as a form without a fault is in the grammar. -/
theorem denotesForm_of_ofSexp {s : Sexp} {form : Form} (h : ofSexp s = form)
    (accepted : ¬ form.IsMalformed) : s.DenotesForm form := by
  unfold ofSexp at h
  split at h
  · cases h
    exact absurd trivial accepted
  · next word args =>
    split at h
    · next meaning =>
      cases Word.of_eq_keyword_iff.1 meaning
      subst h
      obtain ⟨d, parsed, same⟩ := of_ofDefinition accepted
      rw [same]
      exact Definition.denotesForm_of_ofDefine parsed
    · next meaning =>
      cases Word.of_eq_keyword_iff.1 meaning
      subst h
      obtain ⟨d, parsed, same⟩ := of_ofDefinition accepted
      rw [same]
      exact Definition.denotesForm_of_ofDefineStruct parsed
    · next meaning =>
      split at h
      · cases Word.of_eq_keyword_iff.1 meaning
        subst h
        obtain ⟨c, parsed, same⟩ := of_ofCheck accepted
        rw [same]
        exact Check.denotesForm_of_ofArgs parsed
      · subst h
        exact denotesForm_of_ofExpression accepted
    · subst h
      exact denotesForm_of_ofExpression accepted
  · subst h
    exact denotesForm_of_ofExpression accepted

/-! ## What is in the grammar is parsed -/

/-- An expression of the grammar is an expression at the top level too: its first word is never one
that begins a definition or a test. -/
theorem ofSexp_of_denotes {s : Sexp} {e : Expr} (h : s.Denotes e) : ofSexp s = .expression e := by
  have parsed : ofExpression (Expr.ofSexp s) = .expression e := by
    rw [Expr.ofSexp_of_denotes h]
    rfl
  rw [← parsed]
  cases h with
  | templateHead unfinished anything =>
    simp only [ofSexp, Word.of_eq_template_iff.2 unfinished]
  | call free all => simp only [ofSexp, Word.of_eq_free_iff.2 free]
  | ifElse asked first second =>
    have meaning : Word.of "if" = .keyword .ifWord := Word.of_text .ifWord
    simp only [ofSexp, meaning]
    rfl
  | cond nonempty all =>
    have meaning : Word.of "cond" = .keyword .cond := Word.of_text .cond
    simp only [ofSexp, meaning]
    rfl
  | logical connective two all =>
    cases connective <;> simp only [ofSexp, Connective.keyword, Word.of_text] <;> rfl
  | _ => rfl

/-- What follows `define` is parsed as a definition. -/
theorem ofSexp_define (args : List Sexp) :
    ofSexp (.list (.name "define" :: args)) =
      ofDefinition (Definition.ofDefine (.list (.name "define" :: args)) args) := by
  have meaning : Word.of "define" = .keyword .define := Word.of_text .define
  simp only [ofSexp, meaning]

/-- What follows `define-struct` is parsed as a definition. -/
theorem ofSexp_defineStruct (args : List Sexp) :
    ofSexp (.list (.name "define-struct" :: args)) =
      ofDefinition (Definition.ofDefineStruct (.list (.name "define-struct" :: args)) args) := by
  have meaning : Word.of "define-struct" = .keyword .defineStruct := Word.of_text .defineStruct
  simp only [ofSexp, meaning]

/-- What follows the keyword of a test is parsed as a test. -/
theorem ofSexp_check {k : Keyword} (check : k.isCheck = true) (args : List Sexp) :
    ofSexp (.list (.name k.text :: args)) =
      ofCheck (Check.ofArgs (.list (.name k.text :: args)) k args) := by
  unfold ofSexp
  simp only [Word.of_text]
  cases k <;> first | rfl | cases check

/-- What is in the grammar is parsed as the form that it is. -/
theorem ofSexp_of_denotesForm {s : Sexp} {form : Form} (h : s.DenotesForm form) :
    ofSexp s = form := by
  cases h with
  | expression h => exact ofSexp_of_denotes h
  | constant free h => rw [ofSexp_define, Definition.ofDefine_constant free h, ofDefinition]
  | function free nonempty allFree distinct h =>
    rw [ofSexp_define, Definition.ofDefine_function free nonempty allFree distinct h, ofDefinition]
  | struct free nonempty allFree distinct =>
    rw [ofSexp_defineStruct, Definition.ofDefineStruct_struct free nonempty allFree distinct,
      ofDefinition]
  | checkExpect first second =>
    refine (ofSexp_check (k := .checkExpect) rfl _).trans ?_
    rw [Check.ofArgs, Expr.ofSexp_of_denotes first, Expr.ofSexp_of_denotes second]
    rfl
  | checkWithin first second third =>
    refine (ofSexp_check (k := .checkWithin) rfl _).trans ?_
    rw [Check.ofArgs, Expr.ofSexp_of_denotes first, Expr.ofSexp_of_denotes second,
      Expr.ofSexp_of_denotes third]
    rfl
  | checkError first =>
    refine (ofSexp_check (k := .checkError) rfl _).trans ?_
    rw [Check.ofArgs, Expr.ofSexp_of_denotes first]
    rfl
  | checkErrorWith first second =>
    refine (ofSexp_check (k := .checkError) rfl _).trans ?_
    rw [Check.ofArgs, Expr.ofSexp_of_denotes first, Expr.ofSexp_of_denotes second]
    rfl

/-! ## The grammar and the parser -/

/-- The parser accepts exactly the grammar of the language: an S-expression is parsed as an
expression just if it is that expression, and as a form without a fault just if it is that form. -/
theorem parser_accepts_grammar (s : Sexp) :
    (∀ e, Expr.ofSexp s = .ok e ↔ s.Denotes e) ∧
      ∀ form, (ofSexp s = form ∧ ¬ form.IsMalformed) ↔ s.DenotesForm form := by
  refine ⟨fun e => Expr.ofSexp_eq_ok_iff, fun form => ?_⟩
  constructor
  · rintro ⟨parsed, accepted⟩
    exact denotesForm_of_ofSexp parsed accepted
  · intro h
    refine ⟨ofSexp_of_denotesForm h, ?_⟩
    cases h <;> exact id

end Form

end Tyro
