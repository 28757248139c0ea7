import Tyro.Form.Parse
import Tyro.Proofs.Eval.Correspondence
import Tyro.Proofs.Sexp.FilterMap

/-!
# Parsing S-expressions that match

The parser looks at the shape of an S-expression and at the atoms in it. It never looks into the
errors, and never asks which of two equal parts it has. So if a relation of S-expressions only holds
between those of one shape (`Sexp.Matching`), related S-expressions are parsed alike: as the same
form, or as errors that say the same of related S-expressions (`Form.ofSexp_matches`). For every
function of the parser there is one lemma, and each exit with an error has to hand on the
S-expression that it is about.

Two relations are of this kind. One is to have other tokens in errors: what is bound is the same
(`Form.boundNames_filterMap`). The other is to be one S-expression that stands inside a given one:
what an error is about stands there, too (`Form.errors_point_inside`).
-/

namespace Tyro

namespace Sexp

/-- The S-expressions have the same shape: the same atoms, errors in the same places, and lists of
related items. -/
inductive Shape (R : Sexp → Sexp → Prop) : Sexp → Sexp → Prop
  | string (content : String) : Shape R (.string content) (.string content)
  | number (value : Float) : Shape R (.number value) (.number value)
  | boolean (value : Bool) : Shape R (.boolean value) (.boolean value)
  | name (word : String) : Shape R (.name word) (.name word)
  | list {items items' : List Sexp} (all : List.Forall₂ R items items') :
    Shape R (.list items) (.list items')
  | error (e e' : ReadError) : Shape R (.error e) (.error e')

/-- Related S-expressions have the same shape. -/
def Matching (R : Sexp → Sexp → Prop) : Prop := ∀ s t, R s t → Shape R s t

variable {R : Sexp → Sexp → Prop}

/-- Only a name matches a name, and it is the same. -/
theorem Matching.eq_name (matching : Matching R) {word : String} {t : Sexp}
    (h : R (.name word) t) : t = .name word := by
  cases matching _ _ h
  rfl

/-- Only a list that is not empty matches one, with a first item and others that match. -/
theorem Matching.eq_list (matching : Matching R) {head t : Sexp} {args : List Sexp}
    (h : R (.list (head :: args)) t) :
    ∃ head' args', t = .list (head' :: args') ∧ R head head' ∧ List.Forall₂ R args args' := by
  cases matching _ _ h with
  | list all =>
    obtain ⟨head', args', first, others, rfl⟩ := List.forall₂_cons_left_iff.1 all
    exact ⟨head', args', rfl, first, others⟩

end Sexp

/-- The errors say the same of related S-expressions. -/
inductive ExprError.Matches (R : Sexp → Sexp → Prop) : ExprError → ExprError → Prop
  | read {e e' : ReadError} (alike : R (.error e) (.error e')) : Matches R (.read e) (.read e')
  | form {found found' : Sexp} (owner : FormOwner) (fault : FormFault) (alike : R found found') :
    Matches R (.form ⟨owner, fault, found⟩) (.form ⟨owner, fault, found'⟩)

/-- The errors are of one kind and say the same of related S-expressions. -/
inductive SyntaxError.Matches (R : Sexp → Sexp → Prop) : SyntaxError → SyntaxError → Prop
  | read {e e' : ReadError} (alike : R (.error e) (.error e')) : Matches R (.read e) (.read e')
  | definition {found found' : Sexp} (owner : FormOwner) (fault : FormFault)
    (alike : R found found') :
    Matches R (.definition ⟨owner, fault, found⟩) (.definition ⟨owner, fault, found'⟩)
  | body {e e' : ExprError} (cause : e.Matches R e') : Matches R (.body e) (.body e')
  | expression {e e' : ExprError} (cause : e.Matches R e') :
    Matches R (.expression e) (.expression e')
  | check {e e' : ExprError} (cause : e.Matches R e') : Matches R (.check e) (.check e')

/-- The forms are the same, or malformed with errors that say the same. -/
inductive Form.Matches (R : Sexp → Sexp → Prop) : Form → Form → Prop
  | definition (d : Definition) : Matches R (.definition d) (.definition d)
  | expression (e : Expr) : Matches R (.expression e) (.expression e)
  | check (c : Check) : Matches R (.check c) (.check c)
  | malformed {e e' : SyntaxError} (error : e.Matches R e') :
    Matches R (.malformed e) (.malformed e')

variable {R : Sexp → Sexp → Prop}

/-- Forms that match bind the same names. -/
theorem Form.Matches.boundNames {form form' : Form} (h : form.Matches R form') :
    form'.boundNames = form.boundNames := by
  cases h <;> rfl

/-- Related outcomes stay related when their errors are put in other words. -/
theorem Outcome.mapError {ε ε' δ δ' α β : Type} {F : ε → ε' → Prop} {F' : δ → δ' → Prop}
    {Q : α → β → Prop} {x : Except ε α} {y : Except ε' β} (h : Outcome F Q x y) {f : ε → δ}
    {g : ε' → δ'} (errors : ∀ e e', F e e' → F' (f e) (g e')) :
    Outcome F' Q (x.mapError f) (y.mapError g) := by
  cases x with
  | ok a =>
    cases y with
    | ok b => exact h
    | error e => exact h.elim
  | error e =>
    cases y with
    | ok b => exact h.elim
    | error e' => exact errors e e' h

/-! ## Expressions -/

namespace Expr

/-- Two outcomes of the parser: the same result, or errors that say the same. -/
abbrev Alike (R : Sexp → Sexp → Prop) {α : Type} (x y : Except ExprError α) : Prop :=
  Outcome (ExprError.Matches R) Eq x y

/-- A fault that is found in related S-expressions is the same fault. -/
theorem fault_matches {α : Type} (owner : FormOwner) (f : FormFault) {s t : Sexp} (h : R s t) :
    Alike R (fault owner f s : Except ExprError α) (fault owner f t) :=
  .form owner f h

/-- Words are parsed alike. -/
theorem ofWord_matches {word : String} (h : R (.name word) (.name word)) :
    Alike R (ofWord word) (ofWord word) := by
  unfold ofWord
  split
  · rfl
  · exact fault_matches _ _ h
  · exact fault_matches _ _ h
  · rfl

/-- The operands of a connective are parsed alike. -/
theorem operands_match (connective : Connective) {items items' : List Sexp}
    (length : items.length = items'.length) (parsed : Alike R (ofSexps items) (ofSexps items'))
    {s t : Sexp} (h : R s t) :
    Alike R
      (if operandArity.accepts items.length then
        (do return Expr.logical connective (← ofSexps items))
      else fault (.keyword connective.keyword) (.arity operandArity items.length) s)
      (if operandArity.accepts items'.length then
        (do return Expr.logical connective (← ofSexps items'))
      else fault (.keyword connective.keyword) (.arity operandArity items'.length) t) := by
  rw [length]
  split
  · exact parsed.bind fun es es' same => congrArg _ same
  · exact fault_matches _ _ h

/-- What is not two parts is no clause. -/
theorem clausesOf_wrong (form : Sexp) {parts : List Sexp} (wrong : parts.length ≠ 2)
    {rest : List Sexp} : clausesOf form (.list parts :: rest) =
      fault (.keyword .cond) (.expected .clause (.clauseOf parts.length)) (.list parts) := by
  unfold clausesOf
  split
  · next absent => cases absent
  · next same =>
    cases same
    exact absurd rfl wrong
  · next same =>
    cases same
    exact absurd rfl wrong
  · next same =>
    cases same
    rfl
  · next same => cases same
  · next other _ same =>
    cases same
    exact absurd rfl (other parts)

/-- A question that is no word by itself is parsed as an expression. -/
theorem clausesOf_question (form : Sexp) {question answer : Sexp} {rest : List Sexp}
    (other : ∀ word, question ≠ .name word) :
    clausesOf form (.list [question, answer] :: rest) =
      (do return .clause (← ofSexp question) (← ofSexp answer) (← clausesOf form rest)) := by
  rw [clausesOf]
  exact other

/-- A clause is parsed alike if its parts are. -/
theorem clause_matches (matching : Sexp.Matching R) {s t : Sexp} (h : R s t)
    {question question' answer answer' : Sexp} {rest rest' : List Sexp}
    (asked : R question question')
    (question_alike : Alike R (ofSexp question) (ofSexp question'))
    (answer_alike : Alike R (ofSexp answer) (ofSexp answer'))
    (others : List.Forall₂ R rest rest')
    (rest_alike : Alike R (clausesOf s rest) (clausesOf t rest')) :
    Alike R (clausesOf s (.list [question, answer] :: rest))
      (clausesOf t (.list [question', answer'] :: rest')) := by
  have built : Alike R
      (do return Clauses.clause (← ofSexp question) (← ofSexp answer) (← clausesOf s rest))
      (do return Clauses.clause (← ofSexp question') (← ofSexp answer') (← clausesOf t rest')) := by
    refine question_alike.bind fun q q' sameQuestion => ?_
    refine answer_alike.bind fun a a' sameAnswer => ?_
    refine rest_alike.bind fun cs cs' sameRest => ?_
    rw [sameQuestion, sameAnswer, sameRest]
    exact rfl
  cases matching _ _ asked with
  | name word =>
    unfold clausesOf
    split
    · cases others with
      | nil => exact answer_alike.bind fun a a' same => congrArg _ same
      | cons => exact fault_matches _ _ h
    · exact built
  | _ =>
    rw [clausesOf_question s (by rintro _ ⟨⟩), clausesOf_question t (by rintro _ ⟨⟩)]
    exact built

mutual

/-- S-expressions that match are parsed alike, as expressions. -/
theorem ofSexp_matches (matching : Sexp.Matching R) {s t : Sexp} (h : R s t) :
    Alike R (ofSexp s) (ofSexp t) := by
  match s with
  | .string _ | .number _ | .boolean _ =>
    cases matching _ _ h
    exact rfl
  | .name word =>
    cases matching _ _ h
    exact ofWord_matches h
  | .error e =>
    cases matching _ _ h
    exact .read h
  | .list [] =>
    cases matching _ _ h with
    | list all =>
      cases all
      exact fault_matches _ _ h
  | .list (.error e :: args) =>
    obtain ⟨head', args', rfl, first, -⟩ := matching.eq_list h
    cases matching _ _ first
    exact .read first
  | .list (.string _ :: args) | .list (.number _ :: args) | .list (.boolean _ :: args) =>
    obtain ⟨head', args', rfl, first, -⟩ := matching.eq_list h
    cases matching _ _ first
    exact fault_matches _ _ h
  | .list (.list _ :: args) =>
    obtain ⟨head', args', rfl, first, -⟩ := matching.eq_list h
    cases matching _ _ first
    exact fault_matches _ _ h
  | .list (.name word :: args) =>
    obtain ⟨head', args', rfl, first, others⟩ := matching.eq_list h
    cases matching.eq_name first
    have parsed := ofSexps_matches matching others
    have length := others.length_eq
    unfold ofSexp
    cases Word.of word with
    | template => exact rfl
    | free => exact parsed.bind fun es es' same => congrArg _ same
    | keyword k =>
      cases k with
      | ifWord =>
        dsimp only
        rw [length]
        match args, others with
        | [question, yes, no], .cons asked (.cons first (.cons second .nil)) =>
          refine (ofSexp_matches matching asked).bind fun q q' sameQuestion => ?_
          refine (ofSexp_matches matching first).bind fun y y' sameFirst => ?_
          refine (ofSexp_matches matching second).bind fun n n' sameSecond => ?_
          rw [sameQuestion, sameFirst, sameSecond]
          exact rfl
        | [], .nil | [_], .cons _ .nil | [_, _], .cons _ (.cons _ .nil) =>
          exact fault_matches _ _ h
        | _ :: _ :: _ :: _ :: _, .cons _ (.cons _ (.cons _ (.cons _ _))) =>
          dsimp only
          split <;> exact fault_matches _ _ h
      | cond =>
        match args, others with
        | [], .nil => exact fault_matches _ _ h
        | _ :: _, .cons first rest =>
          refine (clausesOf_matches matching h (.cons first rest)).bind fun cs cs' same => ?_
          rw [same]
          exact rfl
      | and => exact operands_match .and length parsed h
      | or => exact operands_match .or length parsed h
      | elseWord => exact fault_matches _ _ h
      | define | defineStruct | checkExpect | checkWithin | checkError => exact fault_matches _ _ h
termination_by structural s

/-- Lists that match are parsed alike, as expressions. -/
theorem ofSexps_matches (matching : Sexp.Matching R) {items items' : List Sexp}
    (h : List.Forall₂ R items items') : Alike R (ofSexps items) (ofSexps items') := by
  match items, h with
  | [], .nil => exact rfl
  | item :: items, .cons first others =>
    refine (ofSexp_matches matching first).bind fun e e' same => ?_
    refine (ofSexps_matches matching others).bind fun es es' sames => ?_
    rw [same, sames]
    exact rfl
termination_by structural items

/-- Lists that match are parsed alike, as clauses of forms that match. -/
theorem clausesOf_matches (matching : Sexp.Matching R) {s t : Sexp} (h : R s t)
    {items items' : List Sexp} (all : List.Forall₂ R items items') :
    Alike R (clausesOf s items) (clausesOf t items') := by
  match items, items', all with
  | [], [], .nil => exact rfl
  | item :: rest, item' :: rest', .cons first others =>
    have later := clausesOf_matches matching h others
    match item with
    | .string _ | .number _ | .boolean _ | .name _ =>
      cases matching _ _ first
      exact fault_matches _ _ first
    | .error e =>
      cases matching _ _ first
      exact .read first
    | .list parts =>
      cases matching _ _ first with
      | @list _ parts' both =>
        match parts, parts', both with
        | [question, answer], [question', answer'], .cons asked (.cons answered .nil) =>
          exact clause_matches matching h asked (ofSexp_matches matching asked)
            (ofSexp_matches matching answered) others (clausesOf_matches matching h others)
        | [], [], .nil =>
          rw [clausesOf_wrong s (by simp), clausesOf_wrong t (by simp)]
          exact fault_matches _ _ first
        | [_], [_], .cons _ .nil =>
          rw [clausesOf_wrong s (by simp), clausesOf_wrong t (by simp)]
          exact fault_matches _ _ first
        | _ :: _ :: _ :: _, _ :: _ :: _ :: _, .cons _ (.cons _ (.cons _ more)) =>
          rw [clausesOf_wrong s (by simp), clausesOf_wrong t (by simp)]
          simp only [List.length_cons, more.length_eq]
          exact fault_matches _ _ first
termination_by structural items

end

end Expr

/-! ## Definitions -/

namespace Definition

/-- Two outcomes of the parser: the same result, or errors that say the same. -/
abbrev Alike (R : Sexp → Sexp → Prop) {α : Type} (x y : Except SyntaxError α) : Prop :=
  Outcome (SyntaxError.Matches R) Eq x y

variable {owner : Keyword} {role : NameRole} {s t : Sexp}

/-- A fault that is found in related S-expressions is the same fault. -/
theorem fault_matches {α : Type} (owner : Keyword) (f : FormFault) (h : R s t) :
    Alike R (fault owner f s : Except SyntaxError α) (fault owner f t) :=
  .definition _ f h

/-- Bodies are parsed alike. -/
theorem bodyOf_matches (matching : Sexp.Matching R) {body body' : Sexp} (h : R body body') :
    Alike R (bodyOf body) (bodyOf body') :=
  (Expr.ofSexp_matches matching h).mapError fun _ _ => .body

/-- Names in binding position are parsed alike. -/
theorem boundName_matches (matching : Sexp.Matching R) (h : R s t) {item item' : Sexp}
    (alike : R item item') :
    Alike R (boundName owner role s item) (boundName owner role t item') := by
  cases matching _ _ alike with
  | name word =>
    rw [boundName, boundName]
    split
    · exact fault_matches _ _ h
    · exact rfl
  | error e e' => exact .body (.read alike)
  | _ => exact fault_matches _ _ h

/-- Several names in binding position are parsed alike. -/
theorem boundNamesOf_matches (matching : Sexp.Matching R) (h : R s t) {items items' : List Sexp}
    (all : List.Forall₂ R items items') :
    Alike R (boundNamesOf owner role s items) (boundNamesOf owner role t items') := by
  induction all with
  | nil => exact rfl
  | cons first _ ih =>
    refine (boundName_matches matching h first).bind fun name name' same => ?_
    refine ih.bind fun names names' sames => ?_
    rw [same, sames]
    exact rfl

/-- Names that have to be different are parsed alike. -/
theorem distinctNamesOf_matches (matching : Sexp.Matching R) (h : R s t)
    {items items' : List Sexp} (all : List.Forall₂ R items items') :
    Alike R (distinctNamesOf owner role s items) (distinctNamesOf owner role t items') := by
  refine (boundNamesOf_matches matching h all).bind fun names names' same => ?_
  cases same
  cases firstRepeated? [] names with
  | some name => exact fault_matches _ _ h
  | none => exact rfl

/-- The ends of definitions are parsed alike. -/
theorem onlyBodyOf_matches (matching : Sexp.Matching R) (h : R s t) {place : BodyPlace}
    {items items' : List Sexp} (all : List.Forall₂ R items items') :
    Alike R (onlyBodyOf place s items) (onlyBodyOf place t items') := by
  match items, items', all with
  | [], [], .nil => exact fault_matches _ _ h
  | [_], [_], .cons body .nil => exact bodyOf_matches matching body
  | _ :: _ :: _, _ :: _ :: _, .cons _ (.cons _ more) =>
    unfold onlyBodyOf
    simp only [List.length_cons, more.length_eq]
    exact fault_matches _ _ h

/-- What follows `define` is parsed alike. -/
theorem ofDefine_matches (matching : Sexp.Matching R) (h : R s t) {items items' : List Sexp}
    (all : List.Forall₂ R items items') : Alike R (ofDefine s items) (ofDefine t items') := by
  match items, items', all with
  | [], [], .nil => exact fault_matches _ _ h
  | target :: rest, target' :: rest', .cons first others =>
    cases matching _ _ first with
    | string | number | boolean => exact fault_matches _ _ h
    | error e e' => exact .body (.read first)
    | name word =>
      refine (boundName_matches matching h first).bind fun name name' same => ?_
      cases same
      exact (onlyBodyOf_matches matching h others).bind fun body body' same => congrArg _ same
    | @list header header' both =>
      match header, header', both with
      | [], [], .nil => exact fault_matches _ _ h
      | head :: params, head' :: params', .cons named parameters =>
        refine (boundName_matches matching h named).bind fun name name' same => ?_
        cases same
        match params, params', parameters with
        | [], [], .nil => exact fault_matches _ _ h
        | _ :: _, _ :: _, .cons param more =>
          refine (distinctNamesOf_matches matching h (.cons param more)).bind
            fun names names' same => ?_
          cases same
          exact (onlyBodyOf_matches matching h others).bind fun body body' same => congrArg _ same

/-- What follows `define-struct` is parsed alike. -/
theorem ofDefineStruct_matches (matching : Sexp.Matching R) (h : R s t)
    {items items' : List Sexp} (all : List.Forall₂ R items items') :
    Alike R (ofDefineStruct s items) (ofDefineStruct t items') := by
  match items, items', all with
  | [], [], .nil => exact fault_matches _ _ h
  | head :: rest, head' :: rest', .cons named others =>
    refine (boundName_matches matching h named).bind fun name name' same => ?_
    cases same
    match rest, rest', others with
    | [], [], .nil => exact fault_matches _ _ h
    | _ :: extra, _ :: extra', .cons first more =>
      cases matching _ _ first with
      | string | number | boolean | name => exact fault_matches _ _ h
      | error e e' => exact .body (.read first)
      | @list fields fields' both =>
        match fields, fields', both with
        | [], [], .nil => exact fault_matches _ _ h
        | _ :: _, _ :: _, .cons field fields =>
          refine (distinctNamesOf_matches matching h (.cons field fields)).bind
            fun names names' same => ?_
          cases same
          match extra, extra', more with
          | [], [], .nil => exact rfl
          | _ :: _, _ :: _, .cons _ more =>
            simp only [List.length_cons, more.length_eq]
            exact fault_matches _ _ h

end Definition

/-! ## Tests -/

/-- What follows the keyword of a test is parsed alike. -/
theorem Check.ofArgs_matches (matching : Sexp.Matching R) {s t : Sexp} (h : R s t)
    (keyword : Keyword) {args args' : List Sexp} (all : List.Forall₂ R args args') :
    Expr.Alike R (ofArgs s keyword args) (ofArgs t keyword args') := by
  match args, args', all with
  | [], [], .nil => cases keyword <;> exact Expr.fault_matches _ _ h
  | [_], [_], .cons first .nil =>
    cases keyword with
    | checkError =>
      refine (Expr.ofSexp_matches matching first).bind fun a a' same => ?_
      rw [same]
      exact rfl
    | _ => exact Expr.fault_matches _ _ h
  | [a, b], [a', b'], .cons first (.cons second .nil) =>
    have both (build : Expr → Expr → Check) :
        Expr.Alike R (do return build (← Expr.ofSexp a) (← Expr.ofSexp b))
          (do return build (← Expr.ofSexp a') (← Expr.ofSexp b')) := by
      refine (Expr.ofSexp_matches matching first).bind fun e e' sameFirst => ?_
      refine (Expr.ofSexp_matches matching second).bind fun d d' sameSecond => ?_
      rw [sameFirst, sameSecond]
      exact rfl
    cases keyword with
    | checkExpect => exact both .expect
    | checkError => exact both fun actual message => .error actual (some message)
    | _ => exact Expr.fault_matches _ _ h
  | [_, _, _], [_, _, _], .cons first (.cons second (.cons third .nil)) =>
    cases keyword with
    | checkWithin =>
      refine (Expr.ofSexp_matches matching first).bind fun a a' sameFirst => ?_
      refine (Expr.ofSexp_matches matching second).bind fun b b' sameSecond => ?_
      refine (Expr.ofSexp_matches matching third).bind fun d d' sameThird => ?_
      rw [sameFirst, sameSecond, sameThird]
      exact rfl
    | _ => exact Expr.fault_matches _ _ h
  | _ :: _ :: _ :: _ :: _, _ :: _ :: _ :: _ :: _, .cons _ (.cons _ (.cons _ (.cons _ more))) =>
    cases keyword <;>
      (simp only [ofArgs, List.length_cons, more.length_eq]; exact Expr.fault_matches _ _ h)

/-! ## Forms -/

namespace Form

/-- Forms match that are made of outcomes of the parser that are alike. -/
theorem matches_of_outcome {ε α : Type} {F : ε → ε → Prop} {make : Except ε α → Form}
    (same : ∀ a, Matches R (make (.ok a)) (make (.ok a)))
    (errors : ∀ e e', F e e' → Matches R (make (.error e)) (make (.error e')))
    {x y : Except ε α} (h : Outcome F Eq x y) : Matches R (make x) (make y) := by
  cases x with
  | ok a =>
    cases y with
    | ok b =>
      cases (show a = b from h)
      exact same a
    | error e => exact h.elim
  | error e =>
    cases y with
    | ok b => exact h.elim
    | error e' => exact errors e e' h

/-- **S-expressions that match are parsed alike.** -/
theorem ofSexp_matches (matching : Sexp.Matching R) {s t : Sexp} (h : R s t) :
    Matches R (ofSexp s) (ofSexp t) := by
  have expression : Matches R (ofExpression (Expr.ofSexp s)) (ofExpression (Expr.ofSexp t)) :=
    matches_of_outcome .expression (fun _ _ e => .malformed (.expression e))
      (Expr.ofSexp_matches matching h)
  match s with
  | .error e =>
    cases matching _ _ h
    exact .malformed (.read h)
  | .string _ | .number _ | .boolean _ | .name _ =>
    cases matching _ _ h
    exact expression
  | .list [] =>
    cases matching _ _ h with
    | list all =>
      cases all
      exact expression
  | .list (.string _ :: _) | .list (.number _ :: _) | .list (.boolean _ :: _) |
    .list (.list _ :: _) | .list (.error _ :: _) =>
    obtain ⟨head', args', rfl, first, -⟩ := matching.eq_list h
    cases matching _ _ first
    exact expression
  | .list (.name word :: args) =>
    obtain ⟨head', args', rfl, first, others⟩ := matching.eq_list h
    cases matching.eq_name first
    unfold ofSexp
    dsimp only
    split
    · exact matches_of_outcome .definition (fun _ _ => .malformed)
        (Definition.ofDefine_matches matching h others)
    · exact matches_of_outcome .definition (fun _ _ => .malformed)
        (Definition.ofDefineStruct_matches matching h others)
    · split
      · exact matches_of_outcome .check (fun _ _ e => .malformed (.check e))
          (Check.ofArgs_matches matching h _ others)
      · exact expression
    · exact expression

end Form

/-! ## S-expressions with other tokens -/

/-- To have other tokens in its errors is a relation of S-expressions of one shape. -/
theorem Sexp.matching_filterMap (f : Token → Option Token) :
    Matching fun s t => t = s.filterMap f := by
  rintro s _ rfl
  cases s with
  | string content => exact .string content
  | number value => exact .number value
  | boolean value => exact .boolean value
  | name word => exact .name word
  | error e => exact .error e (e.filterMap f)
  | list items =>
    rw [filterMap, filterMapAll_eq_map]
    exact .list (List.forall₂_map_right_iff.2 (List.forall₂_same.2 fun _ _ => rfl))

/-- The form that an S-expression stands for binds the same names whatever tokens are in errors. -/
theorem Form.boundNames_filterMap (f : Token → Option Token) (s : Sexp) :
    (ofSexp (s.filterMap f)).boundNames = (ofSexp s).boundNames :=
  (ofSexp_matches (Sexp.matching_filterMap f) rfl).boundNames

/-! ## Errors and the S-expressions that they are about -/

namespace Sexp

/-- An S-expression contains the items of the lists that it contains. -/
theorem Contains.item_of_list {s item : Sexp} {items : List Sexp}
    (inside : s.Contains (.list items)) (mem : item ∈ items) : s.Contains item := by
  generalize whole : Sexp.list items = part at inside
  induction inside with
  | self =>
    subst whole
    exact .item mem (.self item)
  | item among _ ih => exact .item among (ih whole)

/-- The two are one S-expression, and it stands inside a given one. -/
def SameInside (s t t' : Sexp) : Prop := t = t' ∧ s.Contains t

/-- An S-expression has its own shape, and its items stand inside where it does. -/
theorem matching_sameInside (s : Sexp) : Matching s.SameInside := by
  rintro t _ ⟨rfl, inside⟩
  cases t with
  | string content => exact .string content
  | number value => exact .number value
  | boolean value => exact .boolean value
  | name word => exact .name word
  | error e => exact .error e e
  | list items =>
    exact .list (List.forall₂_same.2 fun item mem => ⟨rfl, inside.item_of_list mem⟩)

end Sexp

/-- The S-expression that the error is about stands inside the given one: the error that could not
be read, or what has a fault of form. -/
def ExprError.IsInside (e : ExprError) (s : Sexp) : Prop :=
  match e with
  | .read error => s.Contains (.error error)
  | .form error => s.Contains error.found

/-- An error that says the same of an S-expression inside a given one is about one inside it. -/
theorem ExprError.Matches.isInside {s : Sexp} {e e' : ExprError}
    (h : e.Matches s.SameInside e') : e.IsInside s := by
  cases h with
  | read alike => exact alike.2
  | form owner fault alike => exact alike.2

/-- The same with the kind of the error. -/
theorem SyntaxError.Matches.isInside {s : Sexp} {e e' : SyntaxError}
    (h : e.Matches s.SameInside e') : e.cause.IsInside s := by
  cases h with
  | read alike => exact alike.2
  | definition owner fault alike => exact alike.2
  | body cause | expression cause | check cause => exact cause.isInside

/-- **Errors point inside.** If an S-expression is malformed because a part could not be read, that
very part with its error stands in it, and the error points nowhere else. If it is malformed because
of a fault of form, the error points to the S-expression that is at fault, and this is the whole one
or stands inside it. -/
theorem Form.errors_point_inside {s : Sexp} {e : SyntaxError} (h : ofSexp s = .malformed e) :
    match e.cause with
    | .read error => e.found? = none ∧ s.Contains (.error error)
    | .form error => e.found? = some error.found ∧ s.Contains error.found := by
  have same : Matches s.SameInside (ofSexp s) (ofSexp s) :=
    ofSexp_matches (Sexp.matching_sameInside s) ⟨rfl, .self s⟩
  rw [h] at same
  cases same with
  | malformed error =>
    have inside : e.cause.IsInside s := error.isInside
    unfold SyntaxError.found?
    revert inside
    cases e.cause with
    | read error => exact fun inside => ⟨rfl, inside⟩
    | form error => exact fun inside => ⟨rfl, inside⟩

/-- In `(define (f x) (cond [(if x) #true]))` the error points to the `if`, which has no answers. -/
theorem Form.error_points_to_if :
    let inner : Sexp := .list [.name "if", .name "x"]
    let s : Sexp := .list [.name "define", .list [.name "f", .name "x"],
      .list [.name "cond", .list [inner, .boolean true]]]
    let e : SyntaxError := .body (.form ⟨.keyword .ifWord, .expected .ifParts (.only 1), inner⟩)
    ofSexp s = .malformed e ∧ e.found? = some inner ∧ s.Contains inner := by
  intro inner s e
  have h : ofSexp s = .malformed e := by rfl
  exact ⟨h, errors_point_inside h⟩

end Tyro
