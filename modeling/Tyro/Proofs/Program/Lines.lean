import Tyro.Proofs.Eval.Plain
import Tyro.Proofs.Form.Words
import Tyro.Proofs.Program.Outcomes
import Tyro.Proofs.Program.Reports

/-!
# The lines of the output

The output has a line feed behind the result of each form. It has no other exactly if the results
are on one line each, and that depends on strings alone: a string may go on over several lines, and
so may the source text of what could not be read; both are printed as they are.

* `FormResult.excerpts` lists what the text of a result takes over from the program.
* `Store.Upholds.isPlain_run` says that all words in it are on one line, and that all strings in it
  have a property if those of the forms have: plain forms have plain results. The proof follows the
  passes of a run, with what is stored as the invariant.
* `Program.lines_of_output` says when the output has one line for each form.
-/

namespace Tyro

open Text

/-! ## What results take over -/

/-- The words and strings in the text of the result of a test. -/
def CheckResult.excerpts : CheckResult → List Excerpt
  | .success => []
  | .differs actual expected => actual.excerpts ++ expected.excerpts
  | .notWithin actual expected _ => actual.excerpts ++ expected.excerpts
  | .actualFailed _ e expected => expected.excerpts ++ e.excerpts
  | .expectedFailed e => e.excerpts
  | .noError actual => actual.excerpts
  | .wrongError expected e => .string expected :: e.excerpts

/-- The words and strings in the text of a refusal. -/
def BindingError.excerpts : BindingError → List Excerpt
  | .alreadyDefined name => [.word name]
  | .notReserved name => [.word name]
  | .value e => e.excerpts

/-- The words and strings in the text for the definition of a name. -/
def FormResult.boundExcerpts (name : String) (v : Value) : List Excerpt :=
  match v with
  | .closure f =>
    if f.name = name then .word name :: f.params.map .word ++ f.body.excerpts
    else .word name :: v.excerpts
  | _ => .word name :: v.excerpts

/-- The words and strings in the text of a result. -/
def FormResult.excerpts : FormResult → List Excerpt
  | .bound name v => boundExcerpts name v
  | .structBound name => [.word name]
  | .unbound e => e.excerpts
  | .value v => v.excerpts
  | .failed e => e.excerpts
  | .check r => r.excerpts
  | .malformed e => e.cause.excerpts

/-- The text of the result of a test is put together from its excerpts. -/
theorem CheckResult.takes_text (r : CheckResult) : Takes r.text r.excerpts := by
  cases r with
  | success => exact .phrase (by decide)
  | differs actual expected =>
    have front : Takes ("Actual value " ++ actual.render ++ " differs from ") actual.excerpts :=
      (Takes.afterPhrase (by decide) actual.takes_render).beforePhrase (by decide)
    exact (front.append expected.takes_render).beforePhrase (by decide)
  | notWithin actual expected delta =>
    have front : Takes ("Actual value " ++ actual.render ++ " is not within ") actual.excerpts :=
      (Takes.afterPhrase (by decide) actual.takes_render).beforePhrase (by decide)
    have middle : Takes ("Actual value " ++ actual.render ++ " is not within " ++
        Number.text delta ++ " of expected value ") actual.excerpts :=
      (front.before (isLine_text delta)).beforePhrase (by decide)
    exact (middle.append expected.takes_render).beforePhrase (by decide)
  | actualFailed keyword e expected =>
    have front : Takes (keyword.text ++
        " encountered the following error instead of the expected value, ") [] :=
      (Takes.fixed (isLine_keyword keyword)).beforePhrase (by decide)
    exact ((front.append expected.takes_render).beforePhrase (by decide)).append e.takes_message
  | expectedFailed e => exact e.takes_message
  | noError actual =>
    exact (Takes.afterPhrase (by decide) actual.takes_render).beforePhrase (by decide)
  | wrongError expected e =>
    have front : Takes ("check-error encountered the following error instead of the expected " ++
        expected ++ " :: ") [.string expected] :=
      (Takes.afterPhrase (by decide) (.single (.string expected))).beforePhrase (by decide)
    exact front.append e.takes_message

/-- The text of a refusal is put together from its excerpts. -/
theorem BindingError.takes_message (e : BindingError) : Takes e.message e.excerpts := by
  cases e with
  | alreadyDefined name => exact (Takes.single (.word name)).beforePhrase (by decide)
  | notReserved name => exact (Takes.single (.word name)).beforePhrase (by decide)
  | value e => exact e.takes_message

/-- Words with spaces before them take over themselves. -/
theorem Takes.spaced (words : List String) : Takes (spaced words) (words.map .word) := by
  unfold Takes
  rw [isLine_spaced, List.forall_mem_map]
  exact Iff.rfl

/-- The text for the definition of a name is put together from its excerpts. -/
theorem FormResult.takes_boundText (name : String) (v : Value) :
    Takes (boundText name v) (boundExcerpts name v) := by
  have value : Takes ("Defined " ++ name ++ " to be " ++ v.render ++ ".")
      (.word name :: v.excerpts) := by
    have front : Takes ("Defined " ++ name ++ " to be ") [.word name] :=
      (Takes.afterPhrase (by decide) (.single (.word name))).beforePhrase (by decide)
    exact (front.append v.takes_render).beforePhrase (by decide)
  cases v with
  | closure f =>
    unfold boundText boundExcerpts
    dsimp only
    split
    · have front : Takes ("Defined (" ++ name) [.word name] :=
        .afterPhrase (by decide) (.single (.word name))
      have header : Takes ("Defined (" ++ name ++ spaced f.params ++ ") to be ")
          (.word name :: f.params.map .word) :=
        (front.append (.spaced f.params)).beforePhrase (by decide)
      exact (header.append f.body.takes_render).beforePhrase (by decide)
    · exact value
  | _ => exact value

/-- **The text of a result is put together from its excerpts.** -/
theorem FormResult.takes_text (r : FormResult) : Takes r.text r.excerpts := by
  cases r with
  | bound name v => exact takes_boundText name v
  | structBound name =>
    exact (Takes.afterPhrase (by decide) (.single (.word name))).beforePhrase (by decide)
  | unbound e => exact e.takes_message
  | value v => exact v.takes_render
  | failed e => exact e.takes_message
  | check r => exact r.takes_text
  | malformed e => exact e.cause.takes_message

/-! ## Tests of plain expressions -/

variable {frame : FrameId} {Q : String → Prop}

/-- All that the text of the result of a test takes over fits. -/
def CheckResult.IsPlain (Q : String → Prop) (r : CheckResult) : Prop := ∀ x ∈ r.excerpts, x.Fits Q

namespace Check

/-- The tolerance of a test comes from a plain outcome, or is refused plainly. -/
theorem complies_toleranceOf {r : Except EvalError Value} (plain : OutcomePlain frame Q r) :
    Complies (EvalError.IsPlain Q) (fun _ => True) (toleranceOf r) := by
  cases r with
  | error e => exact plain
  | ok v =>
    unfold toleranceOf
    dsimp only
    split
    · trivial
    · exact EvalError.isPlain_about (isLine_keyword _) (Value.IsPlain.fits plain)

/-- The message of a test is a string in a plain outcome, or is refused plainly. -/
theorem complies_messageOf {r : Except EvalError Value} (plain : OutcomePlain frame Q r) :
    Complies (EvalError.IsPlain Q) Q (messageOf r) := by
  cases r with
  | error e => exact plain
  | ok v =>
    unfold messageOf
    dsimp only
    split
    · next content is =>
      cases plain <;> cases is
      assumption
    · exact EvalError.isPlain_about (isLine_keyword _) (Value.IsPlain.fits plain)

/-- The message that a test expects, if it names one, has the property. -/
theorem complies_expectedMessage {eval : Expr → Option (Except EvalError Value)}
    {message : Option Expr}
    (each : ∀ m ∈ message.toList, ∀ r, eval m = some r → OutcomePlain frame Q r)
    {r : Except EvalError (Option String)} (h : expectedMessage eval message = some r) :
    Complies (EvalError.IsPlain Q) (fun expected => ∀ content ∈ expected, Q content) r := by
  cases message with
  | none =>
    cases h
    exact nofun
  | some m =>
    obtain ⟨outcome, evaluated, built⟩ := Option.bind_eq_some_iff.1 h
    cases built
    have complies := complies_messageOf (each m List.mem_cons_self outcome evaluated)
    refine complies.map fun expected holds => ?_
    rintro content ⟨⟩
    exact holds

/-- Values that are compared are plain in the result. -/
theorem isPlain_compareEqual {actual expected : Value} (given : actual.IsPlain frame Q)
    (wanted : expected.IsPlain frame Q) : (compareEqual actual expected).IsPlain Q := by
  unfold compareEqual
  split
  · exact List.forall_mem_nil _
  · exact List.forall_mem_append.2 ⟨given.fits, wanted.fits⟩

/-- Values that are compared with a tolerance are plain in the result. -/
theorem isPlain_compareWithin {actual expected : Value} (given : actual.IsPlain frame Q)
    (wanted : expected.IsPlain frame Q) (delta : Float) :
    (compareWithin actual expected delta).IsPlain Q := by
  have either : compareWithin actual expected delta = .success ∨
      compareWithin actual expected delta = .notWithin actual expected delta :=
    ite_eq_or_eq _ _ _
  rcases either with result | result <;> rw [result]
  · exact List.forall_mem_nil _
  · exact List.forall_mem_append.2 ⟨given.fits, wanted.fits⟩

/-- An error that is compared with a message is plain in the result, and so is the message. -/
theorem isPlain_compareError {e : EvalError} (given : e.IsPlain Q) {expected : Option String}
    (wanted : ∀ content ∈ expected, Q content) : (compareError e expected).IsPlain Q := by
  cases expected with
  | none => exact List.forall_mem_nil _
  | some content =>
    unfold compareError
    dsimp only
    split
    · exact List.forall_mem_nil _
    · exact List.forall_mem_cons.2 ⟨wanted content rfl, given⟩

/-- Where the expected side has a plain value, the actual side fails plainly, or is compared. -/
theorem isPlain_actual {eval : Expr → Option (Except EvalError Value)} {actual : Expr}
    {expected : Value} (wanted : expected.IsPlain frame Q)
    (given : ∀ r, eval actual = some r → OutcomePlain frame Q r) {keyword : Keyword}
    {compare : Value → CheckResult}
    (compared : ∀ a : Value, a.IsPlain frame Q → (compare a).IsPlain Q) {result : CheckResult}
    (h : (eval actual >>= fun r =>
      match r with
      | .error e => some (.actualFailed keyword e expected)
      | .ok a => some (compare a)) = some result) : result.IsPlain Q := by
  obtain ⟨a, evaluated, h⟩ := Option.bind_eq_some_iff.1 h
  have here := given a evaluated
  cases a with
  | error e =>
    cases h
    exact List.forall_mem_append.2 ⟨wanted.fits, here⟩
  | ok a =>
    cases h
    exact compared a here

/-- **Tests of plain expressions have plain results.** -/
theorem isPlain_run {eval : Expr → Option (Except EvalError Value)} {c : Check}
    (each : ∀ e ∈ c.parts, ∀ r, eval e = some r → OutcomePlain frame Q r) {result : CheckResult}
    (h : c.run eval = some result) : result.IsPlain Q := by
  cases c with
  | expect actual expected =>
    obtain ⟨given, others⟩ := List.forall_mem_cons.1 each
    obtain ⟨x, evaluated, h⟩ := Option.bind_eq_some_iff.1 h
    have wanted := List.forall_mem_singleton.1 others x evaluated
    cases x with
    | error e =>
      cases h
      exact wanted
    | ok x => exact isPlain_actual wanted given (fun a here => isPlain_compareEqual here wanted) h
  | within actual expected delta =>
    obtain ⟨given, others⟩ := List.forall_mem_cons.1 each
    obtain ⟨right, others⟩ := List.forall_mem_cons.1 others
    obtain ⟨x, evaluated, h⟩ := Option.bind_eq_some_iff.1 h
    have wanted := right x evaluated
    cases x with
    | error e =>
      cases h
      exact wanted
    | ok x =>
      obtain ⟨d, evaluated, h⟩ := Option.bind_eq_some_iff.1 h
      have tolerated := complies_toleranceOf (List.forall_mem_singleton.1 others d evaluated)
      generalize toleranceOf d = tolerance at tolerated h
      cases tolerance with
      | error e =>
        cases h
        exact tolerated
      | ok y =>
        exact isPlain_actual wanted given (fun a here => isPlain_compareWithin here wanted y) h
  | error actual message =>
    obtain ⟨given, others⟩ := List.forall_mem_cons.1 each
    obtain ⟨x, expected, h⟩ := Option.bind_eq_some_iff.1 h
    have wanted := complies_expectedMessage others expected
    cases x with
    | error e =>
      cases h
      exact wanted
    | ok x =>
      obtain ⟨a, evaluated, h⟩ := Option.bind_eq_some_iff.1 h
      have here := given a evaluated
      cases a with
      | ok a =>
        cases h
        exact Value.IsPlain.fits here
      | error e =>
        cases h
        exact isPlain_compareError here wanted

end Check

/-! ## Plain runs -/

/-- All that the text of the result takes over fits. -/
def FormResult.IsPlain (Q : String → Prop) (r : FormResult) : Prop := ∀ x ∈ r.excerpts, x.Fits Q

/-- The line for the definition of a name on one line fits if the value is plain. -/
theorem FormResult.fits_boundExcerpts {name : String} (line : IsLine name) {v : Value}
    (plain : v.IsPlain frame Q) : ∀ x ∈ boundExcerpts name v, x.Fits Q := by
  have named : ∀ x ∈ .word name :: v.excerpts, x.Fits Q := List.forall_mem_cons.2 ⟨line, plain.fits⟩
  cases plain with
  | @closure f defined =>
    unfold boundExcerpts
    dsimp only
    split
    · refine List.forall_mem_cons.2 ⟨line, List.forall_mem_append.2 ⟨?_, defined.body⟩⟩
      exact List.forall_mem_map.2 defined.params
    · exact named
  | _ => exact named

namespace Store

variable {s t : Store} {fuel : Nat}

/-- A refusal to fill a name on one line is plain. -/
theorem fits_of_fill {name : String} (line : IsLine name) {result : Except EvalError Value}
    {e : BindingError} (h : s.fill frame name result = .error e) : ∀ x ∈ e.excerpts, x.Fits Q := by
  unfold fill at h
  split at h <;> cases h <;> exact List.forall_mem_singleton.2 line

/-- A refusal to fill names on one line is plain. -/
theorem fits_of_fillAll {entries : List (String × Value)}
    (lines : ∀ name v, (name, v) ∈ entries → IsLine name) {e : BindingError}
    (h : (s.fillAll frame entries).1 = some e) : ∀ x ∈ e.excerpts, x.Fits Q := by
  induction entries generalizing s with
  | nil => cases h
  | cons entry entries ih =>
    obtain ⟨name, v⟩ := entry
    unfold fillAll at h
    cases filled : s.fill frame name (.ok v) with
    | error refusal =>
      rw [filled] at h
      cases h
      exact fits_of_fill (lines name v List.mem_cons_self) filled
    | ok s' =>
      rw [filled] at h
      exact ih (fun other w mem => lines other w (List.mem_cons_of_mem _ mem)) h

/-- A definition of a single name on one line that has a plain result for it ends plainly. -/
theorem Binds.isPlain {name : String} {result : Except EvalError Value} {r : FormResult}
    (binds : s.Binds frame name result r t) (line : IsLine name)
    (plain : OutcomePlain frame Q result) : r.IsPlain Q := by
  cases binds with
  | refused refusal => exact fits_of_fill line refusal
  | bound reserved => exact FormResult.fits_boundExcerpts line plain
  | failed reserved => exact plain

section Runs

variable (joins : Joins Q)
include joins

/-- In a frame in which all that is stored is plain, plain expressions have plain outcomes. -/
theorem Upholds.isPlain_eval? (upholds : s.Upholds frame (OutcomePlain frame Q)) {e : Expr}
    (plain : e.IsPlain Q) {r : Except EvalError Value} (h : s.eval? fuel frame e = some r) :
    OutcomePlain frame Q r :=
  Store.isPlain_eval? upholds.home upholds.stored joins plain h

/-- What a plain definition has for its names is plain. -/
theorem Upholds.isPlain_entries (upholds : s.Upholds frame (OutcomePlain frame Q)) {d : Definition}
    (plain : (Form.definition d).IsPlain Q) {entries : List (String × Except EvalError Value)}
    (has : s.entries? fuel frame d = some entries) {name : String} {r : Except EvalError Value}
    (mem : (name, r) ∈ entries) : OutcomePlain frame Q r := by
  obtain ⟨names, bodies⟩ := List.forall_mem_append.1 plain
  have lines := List.forall_mem_map.1 names
  have bodies := List.forall_mem_flatMap.1 bodies
  cases d with
  | constant first body =>
    obtain ⟨result, evaluated, built⟩ := Option.bind_eq_some_iff.1 has
    cases built
    cases List.mem_singleton.1 mem
    exact upholds.isPlain_eval? joins (bodies body List.mem_cons_self) evaluated
  | function first params body =>
    cases has
    cases List.mem_singleton.1 mem
    obtain ⟨own, others⟩ := List.forall_mem_cons.1 lines
    exact .closure ⟨rfl, own, others, bodies body List.mem_cons_self⟩
  | struct struct fields =>
    cases has
    obtain ⟨⟨other, v⟩, inside, same⟩ := List.mem_map.1 mem
    cases same
    obtain ⟨own, others⟩ := List.forall_mem_cons.1 lines
    have type : StructType.IsPlain ⟨s.nextSerial, struct, fields⟩ := ⟨own, others⟩
    exact type.of_mem_functions inside

/-- **A plain definition** leaves plain things stored and has a plain result. -/
theorem Upholds.isPlain_runDefinition (upholds : s.Upholds frame (OutcomePlain frame Q))
    {d : Definition} (plain : (Form.definition d).IsPlain Q) {r : FormResult}
    (h : s.runDefinition fuel frame d = some (r, t)) :
    t.Upholds frame (OutcomePlain frame Q) ∧ r.IsPlain Q := by
  refine ⟨⟨upholds.home.runDefinition h, fun name result filled => ?_⟩, ?_⟩
  · rcases result_of_runDefinition upholds.home.there h filled with before | ⟨entries, has, mem⟩
    · exact upholds.stored name result before
    · exact upholds.isPlain_entries joins plain has mem
  · have lines := List.forall_mem_map.1 (List.forall_mem_append.1 plain).1
    cases d with
    | constant name body =>
      obtain ⟨result, evaluated, binds⟩ := runDefinition_constant h
      have has : s.entries? fuel frame (.constant name body) = some [(name, result)] :=
        Option.bind_eq_some_iff.2 ⟨result, evaluated, rfl⟩
      exact binds.isPlain (lines name List.mem_cons_self)
        (upholds.isPlain_entries joins plain has List.mem_cons_self)
    | function name params body =>
      have has : s.entries? fuel frame (.function name params body) =
          some [(name, .ok (.closure ⟨name, params, body, frame⟩))] := rfl
      exact (runDefinition_function h).isPlain (lines name List.mem_cons_self)
        (upholds.isPlain_entries joins plain has List.mem_cons_self)
    | struct name fields =>
      obtain ⟨own, others⟩ := List.forall_mem_cons.1 lines
      have type : StructType.IsPlain ⟨s.nextSerial, name, fields⟩ := ⟨own, others⟩
      rw [runDefinition_struct] at h
      cases refused : ((s.newStruct name fields).2.fillAll frame
          (s.newStruct name fields).1.functions).1 with
      | some e =>
        rw [refused] at h
        cases h
        exact fits_of_fillAll (fun _ _ mem => type.isLine_of_mem_functions mem) refused
      | none =>
        rw [refused] at h
        cases h
        exact List.forall_mem_singleton.2 own

/-- The result is plain, or the test that waits is made of plain expressions. -/
def Pending.IsPlain (Q : String → Prop) : Pending → Prop
  | .done r => r.IsPlain Q
  | .waiting c => ∀ e ∈ c.parts, e.IsPlain Q

/-- **One plain form** leaves plain things stored and has a plain result. -/
theorem Upholds.isPlain_runForm (upholds : s.Upholds frame (OutcomePlain frame Q)) {form : Form}
    (plain : form.IsPlain Q) {pending : Pending}
    (h : s.runForm fuel frame form = some (pending, t)) :
    t.Upholds frame (OutcomePlain frame Q) ∧ pending.IsPlain Q := by
  cases form with
  | definition d =>
    obtain ⟨⟨r, after⟩, defined, built⟩ := Option.bind_eq_some_iff.1 h
    cases built
    exact upholds.isPlain_runDefinition joins plain defined
  | expression e =>
    obtain ⟨result, evaluated, built⟩ := Option.bind_eq_some_iff.1 h
    have outcome := upholds.isPlain_eval? joins plain evaluated
    cases result with
    | ok v =>
      cases built
      exact ⟨upholds, Value.IsPlain.fits outcome⟩
    | error e =>
      cases built
      exact ⟨upholds, outcome⟩
  | check c =>
    cases h
    exact ⟨upholds, List.forall_mem_flatMap.1 plain⟩
  | malformed e =>
    cases h
    exact ⟨upholds, plain⟩

/-- Plain forms leave plain things stored and have plain results. -/
theorem Upholds.isPlain_runForms (upholds : s.Upholds frame (OutcomePlain frame Q))
    {forms : List Form} (plain : ∀ form ∈ forms, form.IsPlain Q) {pendings : List Pending}
    (h : s.runForms fuel frame forms = some (pendings, t)) :
    t.Upholds frame (OutcomePlain frame Q) ∧ ∀ pending ∈ pendings, pending.IsPlain Q := by
  induction forms generalizing s pendings with
  | nil =>
    cases h
    exact ⟨upholds, List.forall_mem_nil _⟩
  | cons form forms ih =>
    obtain ⟨first, middle, rest, now, later, rfl⟩ := runForms_cons h
    obtain ⟨here, others⟩ := List.forall_mem_cons.1 plain
    obtain ⟨middleUpholds, firstPlain⟩ := upholds.isPlain_runForm joins here now
    obtain ⟨last, restPlain⟩ := ih middleUpholds others later
    exact ⟨last, List.forall_mem_cons.2 ⟨firstPlain, restPlain⟩⟩

/-- What plain results and tests are settled to is plain. -/
theorem Upholds.isPlain_settle (upholds : s.Upholds frame (OutcomePlain frame Q))
    {pendings : List Pending} (plain : ∀ pending ∈ pendings, pending.IsPlain Q)
    {results : List FormResult} (h : s.settle fuel frame pendings = some results) :
    ∀ r ∈ results, r.IsPlain Q := by
  induction pendings generalizing results with
  | nil =>
    cases h
    exact List.forall_mem_nil _
  | cons pending pendings ih =>
    obtain ⟨r, rest, now, later, rfl⟩ := settle_cons h
    obtain ⟨here, others⟩ := List.forall_mem_cons.1 plain
    refine List.forall_mem_cons.2 ⟨?_, ih others later⟩
    cases pending with
    | done r' =>
      cases now
      exact here
    | waiting c =>
      obtain ⟨outcome, ran, built⟩ := Option.bind_eq_some_iff.1 now
      cases built
      exact Check.isPlain_run (fun e mem r evaluated =>
        upholds.isPlain_eval? joins (here e mem) evaluated) ran

/-- **Plain forms have plain results** where all that is stored is plain. -/
theorem Upholds.isPlain_run (upholds : s.Upholds frame (OutcomePlain frame Q)) {forms : List Form}
    (plain : ∀ form ∈ forms, form.IsPlain Q) {results : List FormResult}
    (h : s.run fuel frame forms = some (results, t)) : ∀ r ∈ results, r.IsPlain Q := by
  obtain ⟨pendings, passed, settled⟩ := run_eq_some_iff.1 h
  obtain ⟨last, pending⟩ := (upholds.reserveAll _).isPlain_runForms joins plain passed
  exact last.isPlain_settle joins pending settled

end Runs

/-- All that a frame with the library has is plain. -/
theorem upholds_plain_newLibrary (s : Store) (Q : String → Prop) :
    s.newLibrary.2.Upholds s.newLibrary.1 (OutcomePlain s.newLibrary.1 Q) := by
  refine ⟨s.isHome_newLibrary, fun name r filled => ?_⟩
  obtain ⟨v, same, mem⟩ := slot?_newLibrary filled
  cases same
  exact isPlain_library mem

end Store

/-! ## Lines -/

/-- The strings that the text of the result takes over, source text that could not be read among
them. -/
def FormResult.strings (r : FormResult) : List String := Excerpt.strings r.excerpts

/-- The strings in the form, source text that could not be read among them. -/
def Form.strings (form : Form) : List String := Excerpt.strings form.excerpts

/-- The text of a plain result is on one line exactly if its strings are. -/
theorem FormResult.IsPlain.isLine_text_iff {r : FormResult} (plain : r.IsPlain Q) :
    IsLine r.text ↔ ∀ content ∈ r.strings, IsLine content :=
  r.takes_text.trans (Excerpt.forall_isLine_iff plain)

namespace Program

variable {fuel : Nat} {source : String} {results : List LocatedResult}

/-- Texts whose forms are plain have plain results. -/
theorem isPlain_runText (joins : Joins Q) (plain : ∀ form ∈ Form.ofText source, form.IsPlain Q)
    (ran : runText fuel source = some results) : ∀ r ∈ results, r.result.IsPlain Q := by
  obtain ⟨rs, last, passed, rfl⟩ := runText_eq_some_iff.1 ran
  obtain ⟨⟨rs', before⟩, inside, built⟩ := Option.bind_eq_some_iff.1 passed
  cases built
  have library := Store.empty.upholds_plain_newLibrary Q
  have each := library.isPlain_run joins plain inside
  intro r mem
  obtain ⟨⟨result, span⟩, among, rfl⟩ := List.mem_map.1 mem
  exact each result (List.of_mem_zip among).1

/-- Where the strings in the forms of a text have a property, so have those in its results. -/
theorem forall_strings_of_runText (joins : Joins Q)
    (strings : ∀ form ∈ Form.ofText source, ∀ content ∈ form.strings, Q content)
    (ran : runText fuel source = some results) :
    ∀ r ∈ results, r.result.IsPlain Q ∧ ∀ content ∈ r.result.strings, Q content := by
  have plain : ∀ form ∈ Form.ofText source, form.IsPlain Q :=
    fun form mem => Form.isPlain_of_mem_ofText mem (strings form mem)
  intro r mem
  have result := isPlain_runText joins plain ran r mem
  exact ⟨result, (Excerpt.forall_fits_iff.1 result).2⟩

/-- The results are at the places of the S-expressions, in order. -/
theorem map_span_runText (ran : runText fuel source = some results) :
    results.map (·.span) = (Sexp.ofText source).map (·.span) := by
  obtain ⟨rs, s, forms, rfl⟩ := runText_eq_some_iff.1 ran
  have length := length_run forms
  rw [Form.ofData, List.length_map] at length
  rw [locate, List.map_map]
  refine List.map_snd_zip ?_
  rw [List.length_map, length]

/-- **The lines of the output.** When a text with forms has run, with one result at the place of
each form, the output has at least as many line feeds as the text has forms. It has just as many if
and only if all strings that the results take over are on one line. In that case each line is the
text of one result, in order. It is always the case if all strings in the forms are on one line, and
the source text of what could not be read, too. -/
theorem lines_of_output (ran : runText fuel source = some results)
    (forms : Sexp.ofText source ≠ []) :
    results.map (·.span) = (Sexp.ofText source).map (·.span) ∧
    ∃ out, output fuel source = some out ∧
      (Sexp.ofText source).length ≤ lineFeeds out ∧
      (lineFeeds out = (Sexp.ofText source).length ↔
        ∀ r ∈ results, ∀ content ∈ r.result.strings, IsLine content) ∧
      (lineFeeds out = (Sexp.ofText source).length →
        Prompt.lines out.toList = results.map fun r => r.result.text.toList ++ ['\n']) ∧
      ((∀ form ∈ Form.ofText source, ∀ content ∈ form.strings, IsLine content) →
        lineFeeds out = (Sexp.ofText source).length) := by
  have length : results.length = (Sexp.ofText source).length := by
    rw [length_runText ran, Form.ofText, List.length_map]
  have printed := output_eq_lines ran
  have nonempty : results ≠ [] := by
    rintro rfl
    exact forms (List.length_eq_zero_iff.1 length.symm)
  rw [if_neg nonempty] at printed
  have ended : String.join (results.map fun r => r.result.text ++ "\n") =
      endLines (results.map fun r => r.result.text) := by
    rw [endLines, List.map_map]
    rfl
  have count : lineFeeds (endLines (results.map fun r => r.result.text)) =
      (Sexp.ofText source).length ↔ ∀ r ∈ results, IsLine r.result.text := by
    rw [← length, ← List.length_map fun r : LocatedResult => r.result.text,
      lineFeeds_endLines_eq_length_iff, List.forall_mem_map]
  -- words are on one line in any case, so that the strings decide
  have anything : ∀ r ∈ results, r.result.IsPlain fun _ => True := fun r mem =>
    (forall_strings_of_runText (fun _ _ => trivial) (fun _ _ _ _ => trivial) ran r mem).1
  have decided : (∀ r ∈ results, IsLine r.result.text) ↔
      ∀ r ∈ results, ∀ content ∈ r.result.strings, IsLine content :=
    forall₂_congr fun r mem => (anything r mem).isLine_text_iff
  rw [ended] at printed
  refine ⟨map_span_runText ran, _, printed, ?_, count.trans decided, fun same => ?_,
    fun strings => ?_⟩
  · rw [lineFeeds_endLines, List.length_map, length]
    exact Nat.le_add_left _ _
  · rw [lines_endLines (List.forall_mem_map.2 (count.1 same)), List.map_map]
    rfl
  · have joins : Joins IsLine := fun _ => isLine_join.2
    have lines := forall_strings_of_runText joins strings ran
    exact (count.trans decided).2 fun r mem => (lines r mem).2

/-- A function with a string in its body, a call, a failed test of an error and a group that is not
closed make four lines. -/
theorem lines_of_four_forms :
    let source := "(define (f x) (string-append x \"!\"))\n(f \"a\")\n" ++
      "(check-error (f #true) \"m\")\n(g \n"
    ∃ results out, runText 4 source = some results ∧ Sexp.ofText source ≠ [] ∧
      output 4 source = some out ∧ lineFeeds out = 4 ∧
      Prompt.lines out.toList = results.map fun r => r.result.text.toList ++ ['\n'] := by
  intro source
  have ends : (runText 4 source).isSome = true := by decide +kernel
  obtain ⟨results, ran⟩ := Option.isSome_iff_exists.1 ends
  have four : (Sexp.ofText source).length = 4 := by decide +kernel
  have forms : Sexp.ofText source ≠ [] := by
    intro empty
    rw [empty] at four
    cases four
  have strings : ∀ form ∈ Form.ofText source, ∀ content ∈ form.strings, IsLine content := by
    decide +kernel
  obtain ⟨-, out, printed, -, -, lines, one⟩ := lines_of_output ran forms
  exact ⟨results, out, ran, forms, printed, (one strings).trans four, lines (one strings)⟩

/-- A string that goes on over two lines is printed on two, and so is a group that is closed by a
bracket of another kind: one form, two line feeds. -/
theorem two_lines_of_one_form :
    (∃ out, output 1 "\"a\nb\"" = some out ∧ (Sexp.ofText "\"a\nb\"").length = 1 ∧
      lineFeeds out = 2) ∧
    ∃ out, output 1 "(f\n]" = some out ∧ (Sexp.ofText "(f\n]").length = 1 ∧
      lineFeeds out = 2 := by
  have string : (output 1 "\"a\nb\"").map lineFeeds = some 2 := by decide +kernel
  have group : (output 1 "(f\n]").map lineFeeds = some 2 := by decide +kernel
  obtain ⟨out, printed, two⟩ := Option.map_eq_some_iff.1 string
  obtain ⟨out', printed', two'⟩ := Option.map_eq_some_iff.1 group
  exact ⟨⟨out, printed, by decide +kernel, two⟩, out', printed', by decide +kernel, two'⟩

end Program

end Tyro
