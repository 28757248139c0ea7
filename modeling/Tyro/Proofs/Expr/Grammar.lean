import Tyro.Expr.Parse

/-!
# The grammar of expressions

`Sexp.Denotes` is the grammar: it says which S-expressions are expressions, and which expression
each of them is. It knows neither the order in which the parser looks at things nor its errors.

* `Expr.ofSexp_of_denotes`: what the grammar allows is parsed, as the expression that it is. The
  proof follows the derivation.
* `Expr.denotes_of_ofSexp`: what is parsed is allowed by the grammar. The proof follows the parser.

Together they are `Expr.ofSexp_eq_ok_iff`. Both have one statement for expressions, one for lists of
them and one for clauses.
-/

namespace Tyro

/-- A computation succeeds exactly if it does so in both its steps. -/
theorem bind_eq_ok_iff {ε α β : Type} {x : Except ε α} {f : α → Except ε β} {b : β} :
    x >>= f = .ok b ↔ ∃ a, x = .ok a ∧ f a = .ok b := by
  cases x with
  | error e => exact iff_of_false nofun (by rintro ⟨a, ⟨⟩, -⟩)
  | ok a => exact ⟨fun h => ⟨a, rfl, h⟩, by rintro ⟨a, ⟨⟩, h⟩; exact h⟩

/-! ## Words -/

namespace Word

/-- The word is free to be a name: it is no keyword and does not stand for unfinished code. -/
def IsFree (word : String) : Prop := word ∉ templates ∧ ∀ k : Keyword, k.text ≠ word

/-- Only templates mean a template. -/
theorem of_eq_template_iff {word : String} : of word = .template ↔ word ∈ templates := by
  unfold of
  constructor
  · intro h
    split at h
    · next mem => exact mem
    · split at h <;> cases h
  · exact fun mem => if_pos mem

/-- Only a keyword's text means the keyword. -/
theorem of_eq_keyword_iff {word : String} {k : Keyword} : of word = .keyword k ↔ word = k.text := by
  constructor
  · intro h
    unfold of at h
    split at h
    · cases h
    · split at h
      · next found =>
        cases h
        exact (Keyword.text_of_ofText? found).symm
      · cases h
  · rintro rfl
    exact of_text k

/-- The words without a meaning of their own are those that are free. -/
theorem of_eq_free_iff {word : String} : of word = .free ↔ IsFree word := by
  have reserved := not_congr (@isReserved_iff word)
  simp only [isReserved, ne_eq, decide_eq_true_iff, not_or, not_exists, Classical.not_not]
    at reserved
  exact reserved

end Word

/-! ## The grammar -/

mutual

/-- The S-expression is the expression, written as the grammar of the language wants it. -/
inductive Sexp.Denotes : Sexp → Expr → Prop
  | string (content : String) : Sexp.Denotes (.string content) (.string content)
  | number (value : Float) : Sexp.Denotes (.number value) (.number value)
  | boolean (value : Bool) : Sexp.Denotes (.boolean value) (.boolean value)
  | name {word : String} (free : Word.IsFree word) : Sexp.Denotes (.name word) (.name word)
  | template {dots : String} (unfinished : dots ∈ templates) :
    Sexp.Denotes (.name dots) (.template dots)
  /-- A template at the head of a list stands for the whole list. -/
  | templateHead {dots : String} (unfinished : dots ∈ templates) (anything : List Sexp) :
    Sexp.Denotes (.list (.name dots :: anything)) (.template dots)
  | call {function : String} {items : List Sexp} {args : List Expr}
    (free : Word.IsFree function) (all : Sexp.DenoteAll items args) :
    Sexp.Denotes (.list (.name function :: items)) (.call function args)
  | ifElse {question yes no : Sexp} {q y n : Expr} (asked : Sexp.Denotes question q)
    (first : Sexp.Denotes yes y) (second : Sexp.Denotes no n) :
    Sexp.Denotes (.list [.name "if", question, yes, no]) (.ifElse q y n)
  | cond {items : List Sexp} {clauses : Clauses} (nonempty : items ≠ [])
    (all : Sexp.DenoteClauses items clauses) :
    Sexp.Denotes (.list (.name "cond" :: items)) (.cond clauses)
  | logical (connective : Connective) {items : List Sexp} {operands : List Expr}
    (two : 2 ≤ items.length) (all : Sexp.DenoteAll items operands) :
    Sexp.Denotes (.list (.name connective.keyword.text :: items)) (.logical connective operands)

/-- The S-expressions are the expressions, one by one. -/
inductive Sexp.DenoteAll : List Sexp → List Expr → Prop
  | nil : Sexp.DenoteAll [] []
  | cons {item : Sexp} {items : List Sexp} {e : Expr} {es : List Expr}
    (first : Sexp.Denotes item e) (rest : Sexp.DenoteAll items es) :
    Sexp.DenoteAll (item :: items) (e :: es)

/-- The S-expressions are the clauses, one by one. Each is a question with its answer; the last
question may be `else` instead. -/
inductive Sexp.DenoteClauses : List Sexp → Clauses → Prop
  | none : Sexp.DenoteClauses [] .none
  | otherwise {answer : Sexp} {a : Expr} (answered : Sexp.Denotes answer a) :
    Sexp.DenoteClauses [.list [.name "else", answer]] (.otherwise a)
  | clause {question answer : Sexp} {items : List Sexp} {q a : Expr} {clauses : Clauses}
    (asked : Sexp.Denotes question q) (answered : Sexp.Denotes answer a)
    (rest : Sexp.DenoteClauses items clauses) :
    Sexp.DenoteClauses (.list [question, answer] :: items) (.clause q a clauses)

end

namespace Expr

/-! ## What the grammar allows is parsed -/

/-- A free word is parsed as a name. -/
theorem ofSexp_free {word : String} (free : Word.IsFree word) :
    ofSexp (.name word) = .ok (.name word) := by
  rw [ofSexp, ofWord]
  simp only [Word.of_eq_free_iff.2 free]

/-- A question that is parsed as an expression begins a clause. The word `else` is not parsed as
one, so that it cannot be the question. -/
theorem clausesOf_clause {form question answer : Sexp} {rest : List Sexp} {q a : Expr}
    {cs : Clauses} (hq : ofSexp question = .ok q) (ha : ofSexp answer = .ok a)
    (hcs : clausesOf form rest = .ok cs) :
    clausesOf form (.list [question, answer] :: rest) = .ok (.clause q a cs) := by
  cases question with
  | name word =>
    rw [ofSexp] at hq
    unfold clausesOf
    split
    · next otherwise =>
      rw [ofWord, otherwise] at hq
      cases hq
    · rw [hq, ha, hcs]
      rfl
  | _ =>
    rw [clausesOf, hq, ha, hcs]
    · rfl
    · nofun

mutual

/-- What the grammar allows as an expression is parsed as it. -/
theorem ofSexp_of_denotes {s : Sexp} {e : Expr} (h : s.Denotes e) : ofSexp s = .ok e := by
  cases h with
  | string content => rfl
  | number value => rfl
  | boolean value => rfl
  | name free => exact ofSexp_free free
  | template unfinished =>
    rw [ofSexp, ofWord]
    simp only [Word.of_eq_template_iff.2 unfinished]
  | templateHead unfinished anything =>
    unfold ofSexp
    simp only [Word.of_eq_template_iff.2 unfinished]
  | call free all =>
    unfold ofSexp
    simp only [Word.of_eq_free_iff.2 free]
    rw [ofSexps_of_denoteAll all]
    rfl
  | ifElse asked first second =>
    have meaning : Word.of "if" = .keyword .ifWord := Word.of_text .ifWord
    unfold ofSexp
    simp only [meaning]
    rw [ofSexp_of_denotes asked, ofSexp_of_denotes first, ofSexp_of_denotes second]
    rfl
  | @cond items clauses nonempty all =>
    have meaning : Word.of "cond" = .keyword .cond := Word.of_text .cond
    have parsed := clausesOf_of_denoteClauses all (.list (.name "cond" :: items))
    obtain ⟨first, rest, rfl⟩ := List.exists_cons_of_ne_nil nonempty
    unfold ofSexp
    simp only [meaning]
    rw [parsed]
    rfl
  | @logical connective items operands two all =>
    have enough : operandArity.accepts items.length = true := Arity.accepts_atLeast.2 two
    unfold ofSexp
    cases connective <;>
      simp only [Connective.keyword, Word.of_text, enough, if_true] <;>
      rw [ofSexps_of_denoteAll all] <;>
      rfl

/-- What the grammar allows as expressions is parsed as them. -/
theorem ofSexps_of_denoteAll {items : List Sexp} {es : List Expr} (h : Sexp.DenoteAll items es) :
    ofSexps items = .ok es := by
  cases h with
  | nil => rfl
  | cons first rest =>
    rw [ofSexps, ofSexp_of_denotes first, ofSexps_of_denoteAll rest]
    rfl

/-- What the grammar allows as clauses is parsed as them, in whatever form they stand. -/
theorem clausesOf_of_denoteClauses {items : List Sexp} {cs : Clauses}
    (h : Sexp.DenoteClauses items cs) (form : Sexp) : clausesOf form items = .ok cs := by
  cases h with
  | none => rfl
  | otherwise answered =>
    have meaning : Word.of "else" = .keyword .elseWord := Word.of_text .elseWord
    rw [clausesOf]
    simp only [meaning]
    rw [ofSexp_of_denotes answered]
    rfl
  | clause asked answered rest =>
    exact clausesOf_clause (ofSexp_of_denotes asked) (ofSexp_of_denotes answered)
      (clausesOf_of_denoteClauses rest form)

end

/-! ## What is parsed is in the grammar -/

/-- A word by itself is parsed as a template or a name. -/
theorem denotes_of_ofWord {word : String} {e : Expr} (h : ofWord word = .ok e) :
    (Sexp.name word).Denotes e := by
  unfold ofWord at h
  cases meaning : Word.of word with
  | template =>
    rw [meaning] at h
    cases h
    exact .template (Word.of_eq_template_iff.1 meaning)
  | keyword k =>
    rw [meaning] at h
    cases k <;> cases h
  | free =>
    rw [meaning] at h
    cases h
    exact .name (Word.of_eq_free_iff.1 meaning)

/-- A first clause that is built has both its parts, and the other clauses follow. -/
theorem of_clause_eq_ok {question answer : Except ExprError Expr}
    {rest : Except ExprError Clauses} {cs : Clauses}
    (h : (do return .clause (← question) (← answer) (← rest)) = Except.ok cs) :
    ∃ q a ds, question = .ok q ∧ answer = .ok a ∧ rest = .ok ds ∧ cs = .clause q a ds := by
  obtain ⟨q, asked, h⟩ := bind_eq_ok_iff.1 h
  obtain ⟨a, answered, h⟩ := bind_eq_ok_iff.1 h
  obtain ⟨ds, parsed, built⟩ := bind_eq_ok_iff.1 h
  cases built
  exact ⟨q, a, ds, asked, answered, parsed, rfl⟩

/-- A first clause is an answer after `else`, without others after it, or a question with its
answer, and the other clauses follow. -/
theorem clausesOf_cons {form item : Sexp} {rest : List Sexp} {cs : Clauses}
    (h : clausesOf form (item :: rest) = .ok cs) :
    (∃ answer a, item = .list [.name "else", answer] ∧ rest = [] ∧ ofSexp answer = .ok a ∧
      cs = .otherwise a) ∨
    ∃ question answer q a ds, item = .list [question, answer] ∧
      ofSexp question = .ok q ∧ ofSexp answer = .ok a ∧
      clausesOf form rest = .ok ds ∧ cs = .clause q a ds := by
  unfold clausesOf at h
  split at h
  · next absent => cases absent
  · next word answer _ same =>
    cases same
    split at h
    · next meaning =>
      cases Word.of_eq_keyword_iff.1 meaning
      split at h
      · obtain ⟨a, parsed, built⟩ := bind_eq_ok_iff.1 h
        cases built
        exact .inl ⟨answer, a, rfl, rfl, parsed, rfl⟩
      · cases h
    · obtain ⟨q, a, ds, asked, parts⟩ := of_clause_eq_ok h
      rw [← ofSexp] at asked
      exact .inr ⟨.name word, answer, q, a, ds, rfl, asked, parts⟩
  · next question answer _ _ same =>
    cases same
    obtain ⟨q, a, ds, parts⟩ := of_clause_eq_ok h
    exact .inr ⟨question, answer, q, a, ds, rfl, parts⟩
  · cases h
  · cases h
  · cases h

/-- Operands of a connective that are parsed are at least two. -/
theorem denotes_of_operands (connective : Connective) {form : Sexp} {items : List Sexp} {e : Expr}
    (all : ∀ es, ofSexps items = .ok es → Sexp.DenoteAll items es)
    (h : (if operandArity.accepts items.length then
      (do return .logical connective (← ofSexps items))
      else fault (.keyword connective.keyword) (.arity operandArity items.length) form) = .ok e) :
    (Sexp.list (.name connective.keyword.text :: items)).Denotes e := by
  split at h
  · next accepted =>
    obtain ⟨es, parsed, built⟩ := bind_eq_ok_iff.1 h
    cases built
    exact .logical connective (Arity.accepts_atLeast.1 accepted) (all es parsed)
  · cases h

mutual

/-- What is parsed as an expression is in the grammar. -/
theorem denotes_of_ofSexp {s : Sexp} {e : Expr} (h : ofSexp s = .ok e) : s.Denotes e := by
  match s with
  | .string content =>
    cases h
    exact .string content
  | .number value =>
    cases h
    exact .number value
  | .boolean value =>
    cases h
    exact .boolean value
  | .name word =>
    rw [ofSexp] at h
    exact denotes_of_ofWord h
  | .error error => cases h
  | .list [] => cases h
  | .list (.string _ :: _) => cases h
  | .list (.number _ :: _) => cases h
  | .list (.boolean _ :: _) => cases h
  | .list (.list _ :: _) => cases h
  | .list (.error _ :: _) => cases h
  | .list (.name word :: args) =>
    have allArgs : ∀ es, ofSexps args = .ok es → Sexp.DenoteAll args es :=
      fun _ => denoteAll_of_ofSexps
    unfold ofSexp at h
    cases meaning : Word.of word with
    | template =>
      simp only [meaning] at h
      cases h
      exact .templateHead (Word.of_eq_template_iff.1 meaning) args
    | free =>
      simp only [meaning] at h
      obtain ⟨es, parsed, built⟩ := bind_eq_ok_iff.1 h
      cases built
      exact .call (Word.of_eq_free_iff.1 meaning) (allArgs es parsed)
    | keyword k =>
      cases Word.of_eq_keyword_iff.1 meaning
      cases k with
      | ifWord =>
        simp only [meaning] at h
        split at h
        · next question yes no =>
          obtain ⟨q, asked, h⟩ := bind_eq_ok_iff.1 h
          obtain ⟨y, first, h⟩ := bind_eq_ok_iff.1 h
          obtain ⟨n, second, built⟩ := bind_eq_ok_iff.1 h
          cases built
          exact .ifElse (denotes_of_ofSexp asked) (denotes_of_ofSexp first)
            (denotes_of_ofSexp second)
        · split at h <;> cases h
      | cond =>
        simp only [meaning] at h
        split at h
        · cases h
        · next nonempty =>
          obtain ⟨cs, parsed, built⟩ := bind_eq_ok_iff.1 h
          cases built
          exact .cond nonempty (denoteClauses_of_clausesOf parsed)
      | and =>
        simp only [meaning] at h
        exact denotes_of_operands .and allArgs h
      | or =>
        simp only [meaning] at h
        exact denotes_of_operands .or allArgs h
      | _ =>
        simp only [meaning] at h
        cases h

/-- What is parsed as expressions is in the grammar. -/
theorem denoteAll_of_ofSexps {items : List Sexp} {es : List Expr} (h : ofSexps items = .ok es) :
    Sexp.DenoteAll items es := by
  match items with
  | [] =>
    cases h
    exact .nil
  | item :: items =>
    rw [ofSexps] at h
    obtain ⟨e, parsed, h⟩ := bind_eq_ok_iff.1 h
    obtain ⟨es, parsedAll, built⟩ := bind_eq_ok_iff.1 h
    cases built
    exact .cons (denotes_of_ofSexp parsed) (denoteAll_of_ofSexps parsedAll)

/-- What is parsed as clauses is in the grammar. -/
theorem denoteClauses_of_clausesOf {form : Sexp} {items : List Sexp} {cs : Clauses}
    (h : clausesOf form items = .ok cs) : Sexp.DenoteClauses items cs := by
  match items with
  | [] =>
    cases h
    exact .none
  | item :: rest =>
    rcases clausesOf_cons h with
      ⟨answer, a, rfl, rfl, answered, rfl⟩ |
      ⟨question, answer, q, a, ds, rfl, asked, answered, parsed, rfl⟩
    · exact .otherwise (denotes_of_ofSexp answered)
    · exact .clause (denotes_of_ofSexp asked) (denotes_of_ofSexp answered)
        (denoteClauses_of_clausesOf parsed)

end

/-- The parser takes an S-expression for an expression exactly if the grammar does. -/
theorem ofSexp_eq_ok_iff {s : Sexp} {e : Expr} : ofSexp s = .ok e ↔ s.Denotes e :=
  ⟨denotes_of_ofSexp, ofSexp_of_denotes⟩

end Expr

end Tyro
