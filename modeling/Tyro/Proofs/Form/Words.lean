import Tyro.Proofs.Expr.Excerpts
import Tyro.Proofs.Form.Matching
import Tyro.Proofs.Form.RoundTrip

/-!
# The words in forms and in their faults

A definition gives names, and a form that is malformed has a fault whose message may name a word.
All of them stand in the text as tokens, so that they are on one line
(`Form.isLine_of_mem_excerpts`). Only the source text of what could not be read is taken over as it
is, whatever is in it.

For every function of the parser there is one lemma. Faults of expressions only name keywords,
whatever the S-expression is (`Expr.failsFit_ofSexp`); faults of definitions name words of the
S-expression, which has to be legible (`Definition.complies_ofDefine` and
`Definition.complies_ofDefineStruct`).
-/

namespace Tyro

open Text

/-! ## What messages of faults take over -/

/-- The name in the place of an expression. -/
def BodyPlace.words : BodyPlace → List String
  | .constant name => [name]
  | .function => []

/-- The words in what is wanted. -/
def Expectation.words : Expectation → List String
  | .parenthesisBefore word => [word]
  | .body place => place.words
  | .onlyBody place => place.words
  | _ => []

/-- The words in a fault. -/
def FormFault.words : FormFault → List String
  | .expected wanted _ => wanted.words
  | .repeated _ name => [name]
  | _ => []

/-- The words in the message of an error, or the source text of what could not be read. -/
def ExprError.excerpts : ExprError → List Excerpt
  | .read e => [.string (trim e.source)]
  | .form e => e.fault.words.map .word

/-- The phrase for the role of a name is on one line. -/
theorem NameRole.isLine_phrase (role : NameRole) : IsLine role.phrase := by
  cases role <;> exact isLine_ofList (by decide)

/-- The text of a place is put together from its words. -/
theorem BodyPlace.takes_phrase (place : BodyPlace) :
    Takes place.phrase (place.words.map .word) := by
  cases place with
  | constant name => exact .afterPhrase (by decide) (.single (.word name))
  | function => exact .phrase (by decide)

/-- What is wanted is put together from its words. -/
theorem Expectation.takes_phrase (wanted : Expectation) :
    Takes wanted.phrase (wanted.words.map .word) := by
  cases wanted with
  | parenthesisBefore word => exact .afterPhrase (by decide) (.single (.word word))
  | body place => exact .afterPhrase (by decide) place.takes_phrase
  | onlyBody place => exact .afterPhrase (by decide) place.takes_phrase
  | name role => exact .fixed role.isLine_phrase
  | _ => exact .phrase (by decide)

/-- A number of parts with its noun is on one line. -/
theorem isLine_partsText (n : Nat) : IsLine (partsText n) := by
  unfold partsText
  refine isLine_append.2 ⟨isLine_toString n, ?_⟩
  split <;> exact isLine_ofList (by decide)

/-- What was found is on one line. -/
theorem Found.isLine_phrase (found : Found) : IsLine found.phrase := by
  cases found with
  | nothing => exact isLine_ofList (by decide)
  | none => exact isLine_ofList (by decide)
  | only n => exact isLine_append.2 ⟨isLine_ofList (by decide), isLine_partsText n⟩
  | extra n =>
    have last : IsLine (if n = 1 then " extra part" else " extra parts") := by
      split <;> exact isLine_ofList (by decide)
    exact isLine_append.2 ⟨isLine_append.2 ⟨isLine_ofList (by decide), isLine_toString n⟩, last⟩
  | clauseOf n => exact isLine_append.2 ⟨isLine_ofList (by decide), isLine_partsText n⟩
  | noun what =>
    refine isLine_append.2 ⟨isLine_ofList (by decide), ?_⟩
    cases what <;> exact isLine_ofList (by decide)

/-- The message of a fault is put together from its words. -/
theorem FormFault.takes_message (fault : FormFault) :
    Takes fault.message (fault.words.map .word) := by
  cases fault with
  | expected wanted found =>
    have front : Takes ("expected " ++ wanted.phrase) (wanted.words.map .word) :=
      .afterPhrase (by decide) wanted.takes_phrase
    exact (front.beforePhrase (by decide)).before found.isLine_phrase
  | repeated role name =>
    have front : Takes ("found " ++ role.phrase ++ " that is used more than once: ") [] :=
      (Takes.afterPhrase (by decide) (.fixed role.isLine_phrase)).beforePhrase (by decide)
    exact front.append (.single (.word name))
  | arity allowed count => exact .fixed (isLine_complaint allowed count)
  | _ => exact .phrase (by decide)

/-- The message of a failure to read takes its source text over, but for the blanks around it. -/
theorem ReadError.takes_message (e : ReadError) :
    Takes e.message [.string (trim e.source)] := by
  have title : IsLine e.fault.title := by
    cases e.fault <;> exact isLine_ofList (by decide)
  have front : Takes ("Read Error: " ++ e.fault.title ++ " for ") [] :=
    (Takes.afterPhrase (by decide) (.fixed title)).beforePhrase (by decide)
  have place := front.append (.single (.string (trim e.source)))
  unfold message
  dsimp only
  cases e.reason? with
  | none => exact place
  | some fault =>
    have reason : IsLine fault.reason := by
      cases fault <;> exact isLine_ofList (by decide)
    exact ((place.beforePhrase (by decide)).before reason).beforePhrase (by decide)

/-- The message of an error is put together from its excerpts. -/
theorem ExprError.takes_message (e : ExprError) : Takes e.message e.excerpts := by
  cases e with
  | read e => exact e.takes_message
  | form e =>
    have owner : IsLine e.owner.text := by
      cases e.owner with
      | keyword k => exact isLine_keyword k
      | call => exact isLine_ofList (by decide)
    exact ((Takes.fixed owner).beforePhrase (by decide)).append e.fault.takes_message

/-! ## Parsing -/

/-- All words that the message of the error takes over are on one line. -/
def ExprError.WordsFit (e : ExprError) : Prop := ∀ word, .word word ∈ e.excerpts → IsLine word

/-- The source text of what could not be read is no word. -/
theorem ExprError.wordsFit_read (e : ReadError) : (read e).WordsFit := by
  intro word mem
  cases List.mem_singleton.1 mem

/-- A fault of form has words that fit if they are on one line. -/
theorem ExprError.wordsFit_form {e : FormError} (lines : ∀ word ∈ e.fault.words, IsLine word) :
    (form e).WordsFit := by
  intro word mem
  obtain ⟨other, there, same⟩ := List.mem_map.1 mem
  cases same
  exact lines word there

namespace Expr

/-- If the parser fails, then with an error whose words fit. -/
abbrev FailsFit {α : Type} (r : Except ExprError α) : Prop :=
  Complies ExprError.WordsFit (fun _ => True) r

/-- A fault without words fits. -/
theorem failsFit_fault {α : Type} {owner : FormOwner} {f : FormFault} {s : Sexp}
    (wordless : f.words = []) : FailsFit (fault owner f s : Except ExprError α) := by
  refine ExprError.wordsFit_form fun word mem => ?_
  rw [wordless] at mem
  cases mem

/-- A word is parsed, or refused as a keyword. -/
theorem failsFit_ofWord (word : String) : FailsFit (ofWord word) := by
  unfold ofWord
  split
  · trivial
  · exact failsFit_fault rfl
  · next k keyword =>
    -- the only word that a fault of an expression names is a keyword
    refine ExprError.wordsFit_form (List.forall_mem_singleton.2 ?_)
    unfold Word.of at keyword
    split at keyword
    · cases keyword
    · split at keyword
      · next k' found =>
        rw [← Keyword.text_of_ofText? found]
        exact isLine_keyword k'
      · cases keyword
  · trivial

/-- The operands of a connective are parsed, or there are too few. -/
theorem failsFit_operands (connective : Connective) {items : List Sexp}
    (parsed : FailsFit (ofSexps items)) (s : Sexp) :
    FailsFit
      (if operandArity.accepts items.length then
        (do return Expr.logical connective (← ofSexps items))
      else fault (.keyword connective.keyword) (.arity operandArity items.length) s) := by
  split
  · exact parsed.bind fun _ _ => trivial
  · exact failsFit_fault rfl

/-- A clause is parsed if its parts are. -/
theorem failsFit_clause (form : Sexp) {question answer : Sexp} {rest : List Sexp}
    (asked : FailsFit (ofSexp question)) (answered : FailsFit (ofSexp answer))
    (others : FailsFit (clausesOf form rest)) :
    FailsFit (clausesOf form (.list [question, answer] :: rest)) := by
  have built : FailsFit
      (do return Clauses.clause (← ofSexp question) (← ofSexp answer) (← clausesOf form rest)) :=
    asked.bind fun _ _ => answered.bind fun _ _ => others.bind fun _ _ => trivial
  cases question with
  | name word =>
    unfold clausesOf
    split
    · cases rest with
      | nil => exact answered.bind fun _ _ => trivial
      | cons => exact failsFit_fault rfl
    · exact built
  | _ =>
    rw [clausesOf_question form (by rintro _ ⟨⟩)]
    exact built

mutual

/-- **Expressions are parsed, or refused with words that fit**, whatever the S-expression is. -/
theorem failsFit_ofSexp (s : Sexp) : FailsFit (ofSexp s) := by
  match s with
  | .string _ | .number _ | .boolean _ => trivial
  | .name word => exact failsFit_ofWord word
  | .error e => exact ExprError.wordsFit_read e
  | .list [] => exact failsFit_fault rfl
  | .list (.error e :: _) => exact ExprError.wordsFit_read e
  | .list (.string _ :: _) | .list (.number _ :: _) | .list (.boolean _ :: _) |
    .list (.list _ :: _) => exact failsFit_fault rfl
  | .list (.name word :: args) =>
    have parsed := failsFit_ofSexps args
    unfold ofSexp
    cases Word.of word with
    | template => trivial
    | free => exact parsed.bind fun _ _ => trivial
    | keyword k =>
      cases k with
      | ifWord =>
        dsimp only
        match args with
        | [question, yes, no] =>
          refine (failsFit_ofSexp question).bind fun _ _ => ?_
          refine (failsFit_ofSexp yes).bind fun _ _ => ?_
          exact (failsFit_ofSexp no).bind fun _ _ => trivial
        | [] | [_] | [_, _] => exact failsFit_fault rfl
        | _ :: _ :: _ :: _ :: _ =>
          dsimp only
          split <;> exact failsFit_fault rfl
      | cond =>
        match args with
        | [] => exact failsFit_fault rfl
        | _ :: _ => exact (failsFit_clausesOf _ _).bind fun _ _ => trivial
      | and => exact failsFit_operands .and parsed _
      | or => exact failsFit_operands .or parsed _
      | elseWord => exact failsFit_fault rfl
      | define | defineStruct | checkExpect | checkWithin | checkError => exact failsFit_fault rfl
termination_by structural s

/-- Several expressions are parsed, or one is refused. -/
theorem failsFit_ofSexps (items : List Sexp) : FailsFit (ofSexps items) := by
  match items with
  | [] => trivial
  | item :: items =>
    refine (failsFit_ofSexp item).bind fun _ _ => ?_
    exact (failsFit_ofSexps items).bind fun _ _ => trivial
termination_by structural items

/-- Clauses are parsed, or one is refused. -/
theorem failsFit_clausesOf (form : Sexp) (items : List Sexp) :
    FailsFit (clausesOf form items) := by
  match items with
  | [] => trivial
  | .string _ :: _ | .number _ :: _ | .boolean _ :: _ | .name _ :: _ => exact failsFit_fault rfl
  | .error e :: _ => exact ExprError.wordsFit_read e
  | .list [question, answer] :: rest =>
    exact failsFit_clause form (failsFit_ofSexp question) (failsFit_ofSexp answer)
      (failsFit_clausesOf form rest)
  | .list [] :: _ | .list [_] :: _ | .list (_ :: _ :: _ :: _) :: _ =>
    rw [clausesOf_wrong form (by simp)]
    exact failsFit_fault rfl
termination_by structural items

end

end Expr

/-! ## Definitions -/

/-- All names that the definition gives: the one that it is for, and those of parameters or
fields. -/
def Definition.givenNames : Definition → List String
  | .constant name _ => [name]
  | .function name params _ => name :: params
  | .struct name fields => name :: fields

/-- The words that the message of the error takes over are on one line. -/
def SyntaxError.WordsFit (e : SyntaxError) : Prop := e.cause.WordsFit

namespace Definition

variable {α : Type} {R : α → Prop} {owner : Keyword} {role : NameRole} {form : Sexp}

/-- A fault fits if its words are on one line. -/
theorem complies_fault {f : FormFault} (lines : ∀ word ∈ f.words, IsLine word) :
    Complies SyntaxError.WordsFit R (fault owner f form : Except SyntaxError α) :=
  ExprError.wordsFit_form lines

/-- An expression that is part of a definition is parsed, or refused with words that fit. -/
theorem complies_bodyOf (body : Sexp) :
    Complies SyntaxError.WordsFit (fun _ => True) (bodyOf body) :=
  (Expr.failsFit_ofSexp body).mapError fun _ fits => fits

/-- A legible name in binding position is on one line. -/
theorem complies_boundName {item : Sexp} (legible : item.Legible) :
    Complies SyntaxError.WordsFit IsLine (boundName owner role form item) := by
  have wordless (wanted : NameRole) (found : Found) (R : String → Prop) :
      Complies SyntaxError.WordsFit R (fault owner (.expected (.name wanted) found) form) :=
    complies_fault (List.forall_mem_nil _)
  cases legible with
  | name token =>
    rw [boundName]
    split
    · exact wordless _ _ _
    · exact isLine_of_isToken token
  | error e => exact ExprError.wordsFit_read e
  | _ => exact wordless _ _ _

/-- Legible names in binding position are on one line each. -/
theorem complies_boundNamesOf {items : List Sexp} (legible : ∀ item ∈ items, item.Legible) :
    Complies SyntaxError.WordsFit (fun names => ∀ name ∈ names, IsLine name)
      (boundNamesOf owner role form items) := by
  induction items with
  | nil => exact List.forall_mem_nil _
  | cons item items ih =>
    obtain ⟨first, others⟩ := List.forall_mem_cons.1 legible
    refine (complies_boundName first).bind fun name line => ?_
    refine (ih others).bind fun names lines => ?_
    exact List.forall_mem_cons.2 ⟨line, lines⟩

/-- A name that is repeated is among the names. -/
theorem mem_of_firstRepeated? {seen names : List String} {name : String}
    (found : firstRepeated? seen names = some name) : name ∈ names := by
  induction names generalizing seen with
  | nil => cases found
  | cons first names ih =>
    unfold firstRepeated? at found
    split at found
    · cases found
      exact List.mem_cons_self
    · exact List.mem_cons_of_mem _ (ih found)

/-- Legible names that have to be different are on one line each. -/
theorem complies_distinctNamesOf {items : List Sexp} (legible : ∀ item ∈ items, item.Legible) :
    Complies SyntaxError.WordsFit (fun names => ∀ name ∈ names, IsLine name)
      (distinctNamesOf owner role form items) := by
  refine (complies_boundNamesOf legible).bind fun names lines => ?_
  cases repeated : firstRepeated? [] names with
  | none => exact lines
  | some name =>
    have line := lines name (mem_of_firstRepeated? repeated)
    exact complies_fault (List.forall_mem_singleton.2 line)

/-- The end of a definition is an expression, or is refused under the name before it. -/
theorem complies_onlyBodyOf (place : BodyPlace) (lines : ∀ word ∈ place.words, IsLine word)
    (items : List Sexp) :
    Complies SyntaxError.WordsFit (fun _ => True) (onlyBodyOf place form items) := by
  match items with
  | [] => exact complies_fault lines
  | [body] => exact complies_bodyOf body
  | _ :: _ :: _ => exact complies_fault lines

/-- **What follows `define` gives names on one line**, or is refused with words that fit. -/
theorem complies_ofDefine {items : List Sexp} (legible : ∀ item ∈ items, item.Legible) :
    Complies SyntaxError.WordsFit (fun d => ∀ name ∈ d.givenNames, IsLine name)
      (ofDefine form items) := by
  match items with
  | [] => exact complies_fault (List.forall_mem_nil _)
  | target :: rest =>
    obtain ⟨first, -⟩ := List.forall_mem_cons.1 legible
    cases first with
    | string | number | boolean => exact complies_fault (List.forall_mem_nil _)
    | error e => exact ExprError.wordsFit_read e
    | name token =>
      refine (complies_boundName (.name token)).bind fun name line => ?_
      have alone := List.forall_mem_singleton.2 line
      refine (complies_onlyBodyOf (.constant name) alone rest).bind fun body _ => ?_
      exact alone
    | @list header all =>
      match header with
      | [] => exact complies_fault (List.forall_mem_nil _)
      | head :: params =>
        obtain ⟨named, parameters⟩ := List.forall_mem_cons.1 all
        refine (complies_boundName named).bind fun name line => ?_
        split
        · exact complies_fault (List.forall_mem_nil _)
        · refine (complies_distinctNamesOf parameters).bind fun names lines => ?_
          have ended : Complies SyntaxError.WordsFit (fun _ => True)
              (onlyBodyOf .function form rest) :=
            complies_onlyBodyOf .function (List.forall_mem_nil _) rest
          refine ended.bind fun body _ => ?_
          exact List.forall_mem_cons.2 ⟨line, lines⟩

/-- **What follows `define-struct` gives names on one line**, or is refused with words that fit. -/
theorem complies_ofDefineStruct {items : List Sexp} (legible : ∀ item ∈ items, item.Legible) :
    Complies SyntaxError.WordsFit (fun d => ∀ name ∈ d.givenNames, IsLine name)
      (ofDefineStruct form items) := by
  match items with
  | [] => exact complies_fault (List.forall_mem_nil _)
  | head :: rest =>
    obtain ⟨named, others⟩ := List.forall_mem_cons.1 legible
    refine (complies_boundName named).bind fun name line => ?_
    match rest with
    | [] => exact complies_fault (List.forall_mem_nil _)
    | first :: extra =>
      cases others first List.mem_cons_self with
      | string | number | boolean | name => exact complies_fault (List.forall_mem_nil _)
      | error e => exact ExprError.wordsFit_read e
      | @list fields all =>
        match fields with
        | [] => exact complies_fault (List.forall_mem_nil _)
        | field :: fields =>
          refine (complies_distinctNamesOf all).bind fun names lines => ?_
          split
          · exact List.forall_mem_cons.2 ⟨line, lines⟩
          · exact complies_fault (List.forall_mem_nil _)

end Definition

/-! ## Tests and forms -/

/-- What follows the keyword of a test is parsed, or refused with words that fit. -/
theorem Check.failsFit_ofArgs (form : Sexp) (keyword : Keyword) (args : List Sexp) :
    Expr.FailsFit (ofArgs form keyword args) := by
  unfold ofArgs
  split
  · next actual expected =>
    refine (Expr.failsFit_ofSexp actual).bind fun _ _ => ?_
    exact (Expr.failsFit_ofSexp expected).bind fun _ _ => trivial
  · next actual expected delta =>
    refine (Expr.failsFit_ofSexp actual).bind fun _ _ => ?_
    refine (Expr.failsFit_ofSexp expected).bind fun _ _ => ?_
    exact (Expr.failsFit_ofSexp delta).bind fun _ _ => trivial
  · next actual => exact (Expr.failsFit_ofSexp actual).bind fun _ _ => trivial
  · next actual message =>
    refine (Expr.failsFit_ofSexp actual).bind fun _ _ => ?_
    exact (Expr.failsFit_ofSexp message).bind fun _ _ => trivial
  · exact Expr.failsFit_fault rfl

namespace Form

/-- The words and strings that results of the form may take over: the names that a definition gives
and all that is in its expressions, or what the message of its error takes over. -/
def excerpts : Form → List Excerpt
  | .definition d => d.givenNames.map .word ++ d.exprs.flatMap Expr.excerpts
  | .expression e => e.excerpts
  | .check c => c.parts.flatMap Expr.excerpts
  | .malformed e => e.cause.excerpts

/-- The words that a form has in itself, apart from its expressions, are on one line. -/
def WordsFit : Form → Prop
  | .definition d => ∀ name ∈ d.givenNames, IsLine name
  | .malformed e => e.WordsFit
  | _ => True

/-- The words of a form that is parsed from a legible S-expression fit. -/
theorem wordsFit_ofSexp {s : Sexp} (legible : s.Legible) : (ofSexp s).WordsFit := by
  have expression : (ofExpression (Expr.ofSexp s)).WordsFit := by
    have fails := Expr.failsFit_ofSexp s
    cases parsed : Expr.ofSexp s <;> rw [parsed] at fails <;> exact fails
  have definition {r : Except SyntaxError Definition}
      (complies : Complies SyntaxError.WordsFit (fun d => ∀ name ∈ d.givenNames, IsLine name) r) :
      (ofDefinition r).WordsFit := by
    cases r <;> exact complies
  cases legible with
  | error e => exact ExprError.wordsFit_read e
  | string | number | boolean | name => exact expression
  | @list items all =>
    unfold ofSexp
    split
    · next same => cases same
    · next word args same =>
      cases same
      have others := (List.forall_mem_cons.1 all).2
      split
      · exact definition (Definition.complies_ofDefine others)
      · exact definition (Definition.complies_ofDefineStruct others)
      · next k _ _ _ =>
        split
        · have fails := Check.failsFit_ofArgs (.list (.name word :: args)) k args
          revert fails
          cases Check.ofArgs (.list (.name word :: args)) k args <;> exact id
        · exact expression
      · exact expression
    · exact expression

/-- All that results of the form may take over fits. -/
def IsPlain (Q : String → Prop) (form : Form) : Prop := ∀ x ∈ form.excerpts, x.Fits Q

/-- All words that results of a form of a text may take over are on one line. -/
theorem isLine_of_mem_excerpts {source : String} {form : Form} (parsed : form ∈ ofText source) :
    ∀ word, .word word ∈ form.excerpts → IsLine word := by
  obtain ⟨d, mem, rfl⟩ := List.mem_map.1 parsed
  have legible := Sexp.legible_ofText mem
  have fits := wordsFit_ofSexp legible
  have printable := printable_of_ofSexp legible
  generalize ofSexp d.sexp = form at fits printable
  have inside : ∀ word, .word word ∈ form.exprs.flatMap Expr.excerpts → IsLine word := by
    intro word mem
    obtain ⟨e, among, inside⟩ := List.mem_flatMap.1 mem
    exact (printable e among).isLine_of_mem word inside
  intro word mem
  cases form with
  | definition d =>
    rcases List.mem_append.1 mem with given | body
    · obtain ⟨name, among, same⟩ := List.mem_map.1 given
      cases same
      exact fits word among
    · exact inside word body
  | expression e => exact inside word (List.mem_flatMap.2 ⟨e, List.mem_cons_self, mem⟩)
  | check c => exact inside word mem
  | malformed e => exact fits word mem

/-- **A form of a text is plain** if the strings that its results may take over have the
property. -/
theorem isPlain_of_mem_ofText {source : String} {form : Form} (parsed : form ∈ ofText source)
    {Q : String → Prop} (strings : ∀ content ∈ Excerpt.strings form.excerpts, Q content) :
    form.IsPlain Q :=
  Excerpt.forall_fits_iff.2 ⟨isLine_of_mem_excerpts parsed, strings⟩

end Form

end Tyro
