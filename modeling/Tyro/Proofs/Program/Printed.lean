import Tyro.Proofs.Program.Outcomes
import Tyro.Proofs.Store.Writable

/-!
# What is printed can be typed in again

A program that is read from a text keeps its top level honest (`Store.Honest`): the names that its
expressions mention can be bound, and a definition binds a function to its own name or to none. So
all values in its results are writable in the end, those that errors report included
(`Honest.run`), and the text of each is an expression that has the value again.

`Store.Obtains` says what a program can get hold of while it runs. All of it is as it is printed
(`Value.AsPrinted`), with everything inside: no string has a double quote, and every function is
what the name that it is printed as means at the top level.
-/

namespace Tyro

/-! ## Forms of a text -/

/-- What the forms of a text have in common: their expressions are printable, and a function has a
name that an expression can have. -/
structure Form.IsWritten (form : Form) : Prop where
  printable : ∀ e ∈ form.exprs, e.Printable
  function : ∀ name params body, form = .definition (.function name params body) →
    Word.IsVariable name

/-- The name of a function is a token that is free to be bound. -/
theorem Form.isVariable_of_denotesForm {s : Sexp} (legible : s.Legible) {name : String}
    {params : List String} {body : Expr}
    (h : s.DenotesForm (.definition (.function name params body))) : Word.IsVariable name := by
  cases h with
  | function free nonempty allFree distinct h =>
    cases legible with
    | list items =>
      have header := items (.list (.name name :: params.map .name)) (by simp)
      cases header with
      | list parts =>
        cases parts (.name name) List.mem_cons_self with
        | name token => exact ⟨token, Word.of_eq_free_iff.2 free⟩

/-- The forms of a text are written. -/
theorem Form.isWritten_of_mem_ofText {source : String} {form : Form} (h : form ∈ ofText source) :
    form.IsWritten := by
  obtain ⟨d, mem, rfl⟩ := List.mem_map.1 h
  have legible := Sexp.legible_ofText mem
  refine ⟨printable_of_ofSexp legible, fun name params body parsed => ?_⟩
  have accepted : ¬ (ofSexp d.sexp).IsMalformed := by
    rw [parsed]
    exact not_false
  exact isVariable_of_denotesForm legible (parsed ▸ denotesForm_of_ofSexp rfl accepted)

/-! ## The values in results -/

/-- The values that a refusal reports. -/
def BindingError.values : BindingError → List Value
  | .value e => e.values
  | _ => []

/-- The values in the result of a test, those that errors report included. -/
def CheckResult.values : CheckResult → List Value
  | .success => []
  | .differs actual expected => [actual, expected]
  | .notWithin actual expected _ => [actual, expected]
  | .actualFailed _ e expected => expected :: e.values
  | .expectedFailed e => e.values
  | .noError actual => [actual]
  | .wrongError _ e => e.values

/-- The values in a result, those that errors report included. -/
def FormResult.values : FormResult → List Value
  | .bound _ v => [v]
  | .structBound _ => []
  | .unbound e => e.values
  | .value v => [v]
  | .failed e => e.values
  | .check r => r.values
  | .malformed _ => []

/-- The values in the result of a test are those in its outcomes. -/
theorem CheckResult.values_eq (r : CheckResult) : r.values = r.outcomes.flatMap outcomeValues := by
  cases r <;> simp [values, outcomes, outcomeValues]

/-- The values in a result are those in its outcomes. -/
theorem FormResult.values_eq (r : FormResult) : r.values = r.outcomes.flatMap outcomeValues := by
  cases r with
  | check r => exact r.values_eq
  | unbound e => cases e <;> simp [values, outcomes, BindingError.values, outcomeValues]
  | _ => simp [values, outcomes, outcomeValues]

/-- Something holds of the values in a result if it does of those in each outcome. -/
theorem FormResult.forall_mem_values {Q : Value → Prop} {r : FormResult} :
    (∀ v ∈ r.values, Q v) ↔ ∀ result ∈ r.outcomes, ∀ v ∈ outcomeValues result, Q v := by
  rw [values_eq]
  exact List.forall_mem_flatMap

namespace Store

variable {s t : Store} {frame : FrameId} {fuel : Nat}

/-! ## Honest runs -/

/-- What a definition has for its names fits them. -/
theorem Honest.fits_of_entries (honest : s.Honest frame) {d : Definition}
    (printable : ∀ e ∈ d.exprs, e.Printable) {entries : List (String × Except EvalError Value)}
    (has : s.entries? fuel frame d = some entries) {name : String} {r : Except EvalError Value}
    (mem : (name, r) ∈ entries) : s.Fits frame name r := by
  cases d with
  | constant first body =>
    obtain ⟨result, evaluated, built⟩ := Option.bind_eq_some_iff.1 has
    cases built
    cases List.mem_singleton.1 mem
    exact .inl (honest.values_of_eval? (printable body List.mem_cons_self) evaluated)
  | function first params body =>
    cases has
    cases List.mem_singleton.1 mem
    refine .inr ⟨_, rfl, .closure _ params (printable body List.mem_cons_self), ?_⟩
    rw [Value.render]
  | struct struct fields =>
    cases has
    obtain ⟨⟨other, v⟩, inside, same⟩ := List.mem_map.1 mem
    cases same
    exact .inr ⟨v, rfl, Value.isFunction_of_mem_functions inside⟩

/-- A definition keeps the frame honest. -/
theorem Honest.runDefinition (honest : s.Honest frame) {d : Definition}
    (printable : ∀ e ∈ d.exprs, e.Printable) {r : FormResult}
    (h : s.runDefinition fuel frame d = some (r, t)) : t.Honest frame := by
  have there := honest.home.there
  refine ⟨honest.home.runDefinition h, fun name result filled => ?_⟩
  refine Fits.keeps ?_ (keeps_of_runDefinition there h)
  rcases result_of_runDefinition there h filled with before | ⟨entries, has, mem⟩
  · exact honest.fits name result before
  · exact honest.fits_of_entries printable has mem

/-- The values in the result of a definition are writable after it. -/
theorem Honest.values_of_runDefinition (honest : s.Honest frame) {d : Definition}
    (written : (Form.definition d).IsWritten) {r : FormResult}
    (h : s.runDefinition fuel frame d = some (r, t)) : ∀ v ∈ r.values, v.Writable t frame := by
  have keeps := keeps_of_runDefinition honest.home.there h
  refine FormResult.forall_mem_values.2 (outcomes_of_runDefinition h
    (fun e mem result evaluated v inside => ?_)
    (fun name params body defined after => List.forall_mem_singleton.2 ?_))
  · exact (honest.values_of_eval? (written.printable e mem) evaluated v inside).keeps keeps
  · -- The function is reported because it has just won the slot of its own name.
    subst defined
    have is : (Value.closure ⟨name, params, body, frame⟩).IsFunction frame :=
      .closure name params (written.printable body List.mem_cons_self)
    refine .function is ?_ ?_ <;> rw [Value.render]
    · exact written.function name params body rfl
    · rw [after, slot?_setSlot honest.home.there, if_pos rfl]

/-- The values in a result are writable, and a test that waits is made of printable expressions. -/
def Pending.IsWritable (s : Store) (frame : FrameId) : Pending → Prop
  | .done r => ∀ v ∈ r.values, v.Writable s frame
  | .waiting c => ∀ e ∈ c.parts, e.Printable

/-- What waits stays writable where values are kept. -/
theorem Pending.IsWritable.keeps {pending : Pending} (h : pending.IsWritable s frame)
    (keeps : s.Keeps t frame) : pending.IsWritable t frame := by
  cases pending with
  | done r => exact fun v mem => (h v mem).keeps keeps
  | waiting c => exact h

/-- **One form** keeps the frame honest, and what it comes to is writable. -/
theorem Honest.runForm (honest : s.Honest frame) {form : Form} (written : form.IsWritten)
    {pending : Pending} (h : s.runForm fuel frame form = some (pending, t)) :
    t.Honest frame ∧ pending.IsWritable t frame := by
  cases form with
  | definition d =>
    obtain ⟨⟨r, after⟩, defined, built⟩ := Option.bind_eq_some_iff.1 h
    cases built
    exact ⟨honest.runDefinition written.printable defined,
      honest.values_of_runDefinition written defined⟩
  | expression e =>
    obtain ⟨result, evaluated, built⟩ := Option.bind_eq_some_iff.1 h
    have values := honest.values_of_eval? (written.printable e List.mem_cons_self) evaluated
    cases result with
    | ok v =>
      cases built
      exact ⟨honest, values⟩
    | error err =>
      cases built
      exact ⟨honest, values⟩
  | check c =>
    cases h
    exact ⟨honest, written.printable⟩
  | malformed e =>
    cases h
    exact ⟨honest, List.forall_mem_nil _⟩

/-- Forms keep the frame honest, and what each comes to is writable in the end. -/
theorem Honest.runForms (honest : s.Honest frame) {forms : List Form}
    (written : ∀ form ∈ forms, form.IsWritten) {pendings : List Pending}
    (h : s.runForms fuel frame forms = some (pendings, t)) :
    t.Honest frame ∧ ∀ pending ∈ pendings, pending.IsWritable t frame := by
  induction forms generalizing s pendings with
  | nil =>
    cases h
    exact ⟨honest, List.forall_mem_nil _⟩
  | cons form forms ih =>
    obtain ⟨first, middle, rest, now, later, rfl⟩ := runForms_cons h
    obtain ⟨here, others⟩ := List.forall_mem_cons.1 written
    obtain ⟨middleHonest, writable⟩ := honest.runForm here now
    obtain ⟨last, all⟩ := ih middleHonest others later
    -- What the first form comes to stays writable, since later forms only add values.
    have keeps := keeps_of_runForms middleHonest.home.there later
    exact ⟨last, List.forall_mem_cons.2 ⟨writable.keeps keeps, all⟩⟩

/-- What writable results and tests are settled to has writable values. -/
theorem Honest.settle (honest : s.Honest frame) {pendings : List Pending}
    (writable : ∀ pending ∈ pendings, pending.IsWritable s frame) {results : List FormResult}
    (h : s.settle fuel frame pendings = some results) :
    ∀ r ∈ results, ∀ v ∈ r.values, v.Writable s frame := by
  induction pendings generalizing results with
  | nil =>
    cases h
    exact List.forall_mem_nil _
  | cons pending pendings ih =>
    obtain ⟨r, rest, now, later, rfl⟩ := settle_cons h
    obtain ⟨here, others⟩ := List.forall_mem_cons.1 writable
    refine List.forall_mem_cons.2 ⟨?_, ih others later⟩
    cases pending with
    | done r' =>
      cases now
      exact here
    | waiting c =>
      obtain ⟨outcome, ran, built⟩ := Option.bind_eq_some_iff.1 now
      cases built
      exact FormResult.forall_mem_values.2 (Check.outcomes_of_run (fun _ holds _ _ _ => holds)
        (fun e mem r evaluated => honest.values_of_eval? (here e mem) evaluated) ran)

/-- **A program keeps the frame honest, and all values in its results are writable in the end.** -/
theorem Honest.run (honest : s.Honest frame) {forms : List Form}
    (written : ∀ form ∈ forms, form.IsWritten) {results : List FormResult}
    (h : s.run fuel frame forms = some (results, t)) :
    t.Honest frame ∧ ∀ r ∈ results, ∀ v ∈ r.values, v.Writable t frame := by
  obtain ⟨pendings, passed, settled⟩ := run_eq_some_iff.1 h
  obtain ⟨last, writable⟩ := (honest.reserveAll _).runForms written passed
  exact ⟨last, last.settle writable settled⟩

/-- The frame is honest at every moment of a program. -/
theorem Honest.storeBefore (honest : s.Honest frame) {forms : List Form}
    (written : ∀ form ∈ forms, form.IsWritten) {i : Nat} {before : Store}
    (h : s.storeBefore? fuel frame forms i = some before) : before.Honest frame := by
  obtain ⟨⟨pendings, last⟩, ran, built⟩ := Option.bind_eq_some_iff.1 h
  cases built
  exact ((honest.reserveAll _).runForms
    (fun form mem => written form (List.mem_of_mem_take mem)) ran).1

/-! ## What a program can get hold of -/

/-- A program can get hold of the value while the store is as it is: an expression of some text has
the value, at the top level or in a call whose arguments are such values. -/
inductive Obtains (s : Store) (frame : FrameId) : Value → Prop
  | intro {source : String} {e : Expr} {locals : Bindings Value} {fuel : Nat} {v : Value}
    (written : Form.ofText source = [.expression e])
    (args : ∀ name w, locals.get? name = some w → Obtains s frame w)
    (evaluated : s.evalAtFuel fuel ⟨locals, frame⟩ e = .result v) : Obtains s frame v

/-- In an honest frame, a program gets hold of writable values only. -/
theorem Honest.writable_of_obtains (honest : s.Honest frame) {v : Value}
    (h : s.Obtains frame v) : v.Writable s frame := by
  induction h with
  | @intro source e locals fuel v written args evaluated ih =>
    have parsed : Form.expression e ∈ Form.ofText source := by
      rw [written]
      exact List.mem_cons_self
    have printable := (Form.isWritten_of_mem_ofText parsed).printable e List.mem_cons_self
    exact honest.writable_of_evalAtFuel ih printable evaluated

end Store

/-- The value is what its text says: a string has no double quote, and a function is what the name
that it is printed as means at the top level. The type of a structure is the one whose constructor
has the name in front of the fields. -/
def Value.AsPrinted (s : Store) (frame : FrameId) : Value → Prop
  | .string content => '\x22' ∉ content.toList
  | .number _ => True
  | .boolean _ => True
  | .struct type _ =>
    (Scope.top frame).lookup s (constructorName type.name) = .ok (.constructor type)
  | f => (Scope.top frame).lookup s f.render = .ok f

namespace Store

variable {s : Store} {frame : FrameId}

/-- A writable value is what its text says. -/
theorem IsHome.asPrinted (home : s.IsHome frame) {v : Value} (h : v.Writable s frame) :
    v.AsPrinted s frame := by
  cases h with
  | string unquoted => exact unquoted
  | number x => trivial
  | boolean b => trivial
  | function is word bound =>
    have named := home.lookup_of_slot bound
    cases is <;> exact named
  | struct maker full all => exact home.lookup_of_slot maker.constructor_inv.2

/-- **What is printed can be typed in again.** Whatever a program comes to that is read from a text
and run in a fresh library, each value in its results whose numbers are finite has a text that is
one expression, and in the store that the program leaves this expression has the value. Moreover,
the values in the results are what their texts say, with everything inside, and so is all that the
program can get hold of at any moment of its run, whether it ends or not. -/
theorem printed_values_are_read_back (s : Store) (source : String) :
    (∀ results after, s.newLibrary.2.Runs s.newLibrary.1 (Form.ofText source) results after →
      ∀ r ∈ results, ∀ v ∈ r.values,
        (v.IsFinite → ∃ e, Form.ofText v.render = [.expression e] ∧
          ∃ fuel, after.eval? fuel s.newLibrary.1 e = some (.ok v)) ∧
        ∀ part, v.Contains part → part.AsPrinted after s.newLibrary.1) ∧
    ∀ fuel i before,
      s.newLibrary.2.storeBefore? fuel s.newLibrary.1 (Form.ofText source) i = some before →
      ∀ v, before.Obtains s.newLibrary.1 v →
        ∀ part, v.Contains part → part.AsPrinted before s.newLibrary.1 := by
  have honest := s.honest_newLibrary
  have written : ∀ form ∈ Form.ofText source, form.IsWritten :=
    fun form => Form.isWritten_of_mem_ofText
  constructor
  · rintro results after ⟨fuel, ran⟩ r mem v inside
    obtain ⟨last, all⟩ := honest.run written ran
    have writable := all r mem v inside
    refine ⟨fun finite => ⟨v.toExpr, ?_, ?_⟩, fun part inside => ?_⟩
    · rw [← v.render_toExpr]
      exact Form.ofText_render (writable.printable_toExpr finite)
    · obtain ⟨enough, evaluated⟩ := last.home.evalAtFuel_toExpr writable
      refine ⟨enough, ?_⟩
      rw [eval?, evaluated]
      rfl
    · exact last.home.asPrinted (writable.of_contains inside)
  · intro fuel i before moment v obtained part inside
    have now := honest.storeBefore written moment
    exact now.home.asPrinted ((now.writable_of_obtains obtained).of_contains inside)

/-- A function, and a point that has the function in the place of its coordinates. -/
def pointSource : String := "(define (same x) x) (make-posn same same)"

/-- The function that `pointSource` defines. -/
def sameFunction : Value := .closure ⟨"same", ["x"], .name "x", 0⟩

/-- The point that `pointSource` comes to, in the first library that is made. -/
def pointOfFunctions : Value := .struct ⟨0, "posn", ["x", "y"]⟩ [sameFunction, sameFunction]

/-- A point with functions inside is printed as a call with the names of the functions, which has
the point as its value again; and the function was what its name means before that. -/
theorem point_of_functions_is_read_back :
    ∃ results after before, empty.newLibrary.2.Runs 0 (Form.ofText pointSource) results after ∧
      FormResult.value pointOfFunctions ∈ results ∧ pointOfFunctions.IsFinite ∧
      (∃ e, Form.ofText pointOfFunctions.render = [.expression e] ∧
        ∃ fuel, after.eval? fuel 0 e = some (.ok pointOfFunctions)) ∧
      empty.newLibrary.2.storeBefore? 5 0 (Form.ofText pointSource) 1 = some before ∧
      before.Obtains 0 sameFunction ∧ sameFunction.AsPrinted before 0 := by
  have read : (Sexp.ofText pointSource).map (·.sexp) =
      [.list [.name "define", .list [.name "same", .name "x"], .name "x"],
        .list [.name "make-posn", .name "same", .name "same"]] := by decide +kernel
  have parsed : Form.ofText pointSource =
      [.definition (.function "same" ["x"] (.name "x")),
        .expression (.call "make-posn" [.name "same", .name "same"])] := Form.ofText_of_read read
  have word : (Sexp.ofText "same").map (·.sexp) = [.name "same"] := by decide +kernel
  have name : Form.ofText "same" = [.expression (.name "same")] := Form.ofText_of_read word
  obtain ⟨after, ran⟩ : ∃ after, empty.newLibrary.2.Runs 0 (Form.ofText pointSource)
      [.bound "same" sameFunction, .value pointOfFunctions] after := by
    rw [parsed]
    exact ⟨_, 5, rfl⟩
  obtain ⟨before, moment, evaluated⟩ : ∃ before,
      empty.newLibrary.2.storeBefore? 5 0 (Form.ofText pointSource) 1 = some before ∧
        before.evalAtFuel 1 (.top 0) (.name "same") = .result sameFunction := by
    rw [parsed]
    exact ⟨_, rfl, rfl⟩
  have finite : pointOfFunctions.IsFinite := by
    rintro x (_ | ⟨mem, inside⟩)
    simp only [List.mem_cons, List.not_mem_nil, or_false, or_self] at mem
    subst mem
    cases inside
  have obtained : before.Obtains 0 sameFunction :=
    .intro name (fun _ _ absent => by cases absent) evaluated
  have value : FormResult.value pointOfFunctions ∈
      [FormResult.bound "same" sameFunction, .value pointOfFunctions] := by simp
  obtain ⟨results, moments⟩ := printed_values_are_read_back empty pointSource
  obtain ⟨again, -⟩ := results _ after ran _ value _ List.mem_cons_self
  exact ⟨_, after, before, ran, value, finite, again finite, moment, obtained,
    moments 5 1 before moment _ obtained _ (.self _)⟩

end Store

end Tyro
