import Tyro.Proofs.Form.RoundTrip
import Tyro.Proofs.Program.Definitions

/-!
# What results are made of

The result of a form is made of outcomes: of values, and of errors that came instead of a value.
`FormResult.outcomes` lists them. They are what evaluation came to, up to one thing: a test refuses
a tolerance that is no number, and a message that is no string (`Check.Refusable`).

A property of outcomes that evaluation passes on, from what is stored in a frame to what an
expression comes to, is therefore passed on to all results of a program. `Inherited` says what such
a property has to bring along, `Store.Upholds` is the invariant of the frame, and `Upholds.run` is
what a run makes of it.
-/

namespace Tyro

/-- The outcomes in the result of a test. -/
def CheckResult.outcomes : CheckResult → List (Except EvalError Value)
  | .success => []
  | .differs actual expected => [.ok actual, .ok expected]
  | .notWithin actual expected _ => [.ok actual, .ok expected]
  | .actualFailed _ e expected => [.ok expected, .error e]
  | .expectedFailed e => [.error e]
  | .noError actual => [.ok actual]
  | .wrongError _ e => [.error e]

/-- The outcomes in a result. A name that is refused is none. -/
def FormResult.outcomes : FormResult → List (Except EvalError Value)
  | .bound _ v => [.ok v]
  | .structBound _ => []
  | .unbound (.value e) => [.error e]
  | .unbound _ => []
  | .value v => [.ok v]
  | .failed e => [.error e]
  | .check r => r.outcomes
  | .malformed _ => []

variable {K : Except EvalError Value → Prop}

/-! ## Tests -/

namespace Check

/-- A value with the property may be refused for its kind. -/
def Refusable (K : Except EvalError Value → Prop) : Prop :=
  ∀ v, K (.ok v) → ∀ name wanted index, K (.error (.about name (.wrongKind wanted index v)))

/-- A tolerance that is refused comes from an outcome. -/
theorem outcome_of_toleranceOf (refusable : Refusable K) {r : Except EvalError Value} (holds : K r)
    {e : EvalError} (h : toleranceOf r = .error e) : K (.error e) := by
  cases r with
  | error e' =>
    cases h
    exact holds
  | ok v =>
    unfold toleranceOf at h
    dsimp only at h
    split at h <;> cases h
    exact refusable v holds _ _ _

/-- A message that is refused comes from an outcome. -/
theorem outcome_of_messageOf (refusable : Refusable K) {r : Except EvalError Value} (holds : K r)
    {e : EvalError} (h : messageOf r = .error e) : K (.error e) := by
  cases r with
  | error e' =>
    cases h
    exact holds
  | ok v =>
    unfold messageOf at h
    dsimp only at h
    split at h <;> cases h
    exact refusable v holds _ _ _

/-- The message that a test expects is refused for what an expression came to. -/
theorem outcome_of_expectedMessage (refusable : Refusable K)
    {eval : Expr → Option (Except EvalError Value)} {message : Option Expr}
    (each : ∀ m, message = some m → ∀ r, eval m = some r → K r) {e : EvalError}
    (h : expectedMessage eval message = some (.error e)) : K (.error e) := by
  cases message with
  | none => cases h
  | some m =>
    obtain ⟨r, evaluated, mapped⟩ := Option.bind_eq_some_iff.1 h
    refine outcome_of_messageOf refusable (each m rfl r evaluated) ?_
    cases refused : messageOf r with
    | error e' =>
      rw [refused] at mapped
      cases mapped
      rfl
    | ok text =>
      rw [refused] at mapped
      cases mapped

/-- Values that are compared are the outcomes in the result. -/
theorem outcomes_of_compareEqual {actual expected : Value} (first : K (.ok actual))
    (second : K (.ok expected)) : ∀ r ∈ (compareEqual actual expected).outcomes, K r := by
  unfold compareEqual
  split
  · exact List.forall_mem_nil _
  · exact List.forall_mem_cons.2 ⟨first, List.forall_mem_singleton.2 second⟩

/-- Values that are compared with a tolerance are the outcomes in the result. -/
theorem outcomes_of_compareWithin {actual expected : Value} (first : K (.ok actual))
    (second : K (.ok expected)) (delta : Float) :
    ∀ r ∈ (compareWithin actual expected delta).outcomes, K r := by
  have either : compareWithin actual expected delta = .success ∨
      compareWithin actual expected delta = .notWithin actual expected delta :=
    ite_eq_or_eq _ _ _
  rcases either with result | result <;> rw [result]
  · exact List.forall_mem_nil _
  · exact List.forall_mem_cons.2 ⟨first, List.forall_mem_singleton.2 second⟩

/-- An error that is compared with a message is the outcome in the result. -/
theorem outcomes_of_compareError {e : EvalError} (holds : K (.error e)) (expected : Option String) :
    ∀ r ∈ (compareError e expected).outcomes, K r := by
  unfold compareError
  split
  · split
    · exact List.forall_mem_nil _
    · exact List.forall_mem_singleton.2 holds
  · exact List.forall_mem_nil _

/-- Where the expected side has a value, the actual side fails, or is compared with it. -/
theorem outcomes_of_actual {eval : Expr → Option (Except EvalError Value)} {actual : Expr}
    {expected : Value} (wanted : K (.ok expected)) (given : ∀ r, eval actual = some r → K r)
    {keyword : Keyword} {compare : Value → CheckResult}
    (compared : ∀ a, K (.ok a) → ∀ r ∈ (compare a).outcomes, K r) {result : CheckResult}
    (h : (eval actual >>= fun r =>
      match r with
      | .error e => some (.actualFailed keyword e expected)
      | .ok a => some (compare a)) = some result) : ∀ r ∈ result.outcomes, K r := by
  obtain ⟨a, evaluated, h⟩ := Option.bind_eq_some_iff.1 h
  have here := given a evaluated
  cases a with
  | error e =>
    cases h
    exact List.forall_mem_cons.2 ⟨wanted, List.forall_mem_singleton.2 here⟩
  | ok a =>
    cases h
    exact compared a here

/-- **The outcomes in the result of a test** are those of its parts, or are refused. -/
theorem outcomes_of_run (refusable : Refusable K) {eval : Expr → Option (Except EvalError Value)}
    {c : Check} (each : ∀ e ∈ c.parts, ∀ r, eval e = some r → K r) {result : CheckResult}
    (h : c.run eval = some result) : ∀ r ∈ result.outcomes, K r := by
  cases c with
  | expect actual expected =>
    obtain ⟨given, others⟩ := List.forall_mem_cons.1 each
    obtain ⟨x, evaluated, h⟩ := Option.bind_eq_some_iff.1 h
    have wanted := List.forall_mem_singleton.1 others x evaluated
    cases x with
    | error e =>
      cases h
      exact List.forall_mem_singleton.2 wanted
    | ok x =>
      exact outcomes_of_actual wanted given (fun a here => outcomes_of_compareEqual here wanted) h
  | within actual expected delta =>
    obtain ⟨given, others⟩ := List.forall_mem_cons.1 each
    obtain ⟨right, others⟩ := List.forall_mem_cons.1 others
    obtain ⟨x, evaluated, h⟩ := Option.bind_eq_some_iff.1 h
    have wanted := right x evaluated
    cases x with
    | error e =>
      cases h
      exact List.forall_mem_singleton.2 wanted
    | ok x =>
      obtain ⟨d, evaluated', h⟩ := Option.bind_eq_some_iff.1 h
      have last := List.forall_mem_singleton.1 others d evaluated'
      cases tolerance : toleranceOf d with
      | error e =>
        rw [tolerance] at h
        cases h
        exact List.forall_mem_singleton.2 (outcome_of_toleranceOf refusable last tolerance)
      | ok y =>
        rw [tolerance] at h
        exact outcomes_of_actual wanted given
          (fun a here => outcomes_of_compareWithin here wanted y) h
  | error actual message =>
    obtain ⟨given, others⟩ := List.forall_mem_cons.1 each
    obtain ⟨x, expected, h⟩ := Option.bind_eq_some_iff.1 h
    cases x with
    | error e =>
      cases h
      refine List.forall_mem_singleton.2 (outcome_of_expectedMessage refusable ?_ expected)
      rintro m rfl
      exact others m List.mem_cons_self
    | ok wanted =>
      obtain ⟨a, evaluated, h⟩ := Option.bind_eq_some_iff.1 h
      have here := given a evaluated
      cases a with
      | error e =>
        cases h
        exact outcomes_of_compareError here wanted
      | ok a =>
        cases h
        exact List.forall_mem_singleton.2 here

end Check

namespace Store

variable {s t : Store} {frame : FrameId} {fuel : Nat}

/-! ## Definitions -/

/-- A name that cannot be filled is refused without an outcome. -/
theorem outcomes_of_fill {name : String} {result : Except EvalError Value} {e : BindingError}
    (h : s.fill frame name result = .error e) : (FormResult.unbound e).outcomes = [] := by
  unfold fill at h
  split at h <;> cases h <;> rfl

/-- Names that cannot be filled are refused without an outcome. -/
theorem outcomes_of_fillAll {entries : List (String × Value)} {e : BindingError}
    (h : (s.fillAll frame entries).1 = some e) : (FormResult.unbound e).outcomes = [] := by
  induction entries generalizing s with
  | nil => cases h
  | cons entry entries ih =>
    obtain ⟨name, v⟩ := entry
    unfold fillAll at h
    cases filled : s.fill frame name (.ok v) with
    | error refusal =>
      rw [filled] at h
      cases h
      exact outcomes_of_fill filled
    | ok s' =>
      rw [filled] at h
      exact ih h

/-- The outcome in the result of a definition: what its body comes to, or the function that has just
been bound. -/
theorem outcomes_of_runDefinition {d : Definition} {r : FormResult}
    (h : s.runDefinition fuel frame d = some (r, t))
    (each : ∀ e ∈ d.exprs, ∀ result, s.eval? fuel frame e = some result → K result)
    (function : ∀ name params body, d = .function name params body →
      t = s.setSlot frame name (.filled (.ok (.closure ⟨name, params, body, frame⟩))) →
        K (.ok (.closure ⟨name, params, body, frame⟩))) :
    ∀ result ∈ r.outcomes, K result := by
  cases d with
  | constant name body =>
    obtain ⟨result, evaluated, binds⟩ := runDefinition_constant h
    have holds := each body List.mem_cons_self result evaluated
    cases binds with
    | refused refusal =>
      rw [outcomes_of_fill refusal]
      exact List.forall_mem_nil _
    | bound reserved => exact List.forall_mem_singleton.2 holds
    | failed reserved => exact List.forall_mem_singleton.2 holds
  | function name params body =>
    cases runDefinition_function h with
    | refused refusal =>
      rw [outcomes_of_fill refusal]
      exact List.forall_mem_nil _
    | bound reserved => exact List.forall_mem_singleton.2 (function name params body rfl rfl)
  | struct name fields =>
    rw [runDefinition_struct] at h
    cases refused : ((s.newStruct name fields).2.fillAll frame
        (s.newStruct name fields).1.functions).1 with
    | some e =>
      rw [refused] at h
      cases h
      change ∀ result ∈ (FormResult.unbound e).outcomes, K result
      rw [outcomes_of_fillAll refused]
      exact List.forall_mem_nil _
    | none =>
      rw [refused] at h
      cases h
      exact List.forall_mem_nil _

/-! ## Properties that are passed on -/

/-- A home frame in which all that is stored has the property. -/
structure Upholds (s : Store) (frame : FrameId) (K : Except EvalError Value → Prop) : Prop where
  home : s.IsHome frame
  stored : ∀ name r, s.slot? frame name = some (.filled r) → K r

/-- Evaluation in the frame passes the property on, all that definitions make has it, and so has
what tests refuse. -/
structure Inherited (frame : FrameId) (K : Except EvalError Value → Prop) : Prop where
  evaluated : ∀ {s : Store} {fuel : Nat} {e : Expr} {r : Except EvalError Value},
    s.Upholds frame K → s.eval? fuel frame e = some r → K r
  builtin : ∀ f, K (.ok (.builtin f))
  number : ∀ x, K (.ok (.number x))
  struct : ∀ (type : StructType) name v, (name, v) ∈ type.functions → K (.ok v)
  closure : ∀ f : Closure, f.home = frame → K (.ok (.closure f))
  refused : Check.Refusable K

/-- A frame with the library upholds the property. -/
theorem Inherited.newLibrary (s : Store) (inherited : Inherited s.newLibrary.1 K) :
    s.newLibrary.2.Upholds s.newLibrary.1 K := by
  refine ⟨s.isHome_newLibrary, fun name r filled => ?_⟩
  obtain ⟨v, same, mem⟩ := slot?_newLibrary filled
  cases same
  rcases mem_library mem with ⟨f, -, rfl⟩ | ⟨x, rfl⟩ | struct
  · exact inherited.builtin f
  · exact inherited.number x
  · exact inherited.struct _ name v struct

/-- Reserving names stores nothing. -/
theorem Upholds.reserveAll (upholds : s.Upholds frame K) (names : List String) :
    (s.reserveAll frame names).Upholds frame K := by
  refine ⟨upholds.home.reserveAll names, fun name r filled => upholds.stored name r ?_⟩
  exact slot?_of_reserveAll upholds.home.there filled

/-- What a definition has for its names has the property. -/
theorem Upholds.entries (upholds : s.Upholds frame K) (inherited : Inherited frame K)
    {d : Definition} {entries : List (String × Except EvalError Value)}
    (has : s.entries? fuel frame d = some entries) {name : String} {r : Except EvalError Value}
    (mem : (name, r) ∈ entries) : K r := by
  cases d with
  | constant first body =>
    obtain ⟨result, evaluated, built⟩ := Option.bind_eq_some_iff.1 has
    cases built
    cases List.mem_singleton.1 mem
    exact inherited.evaluated upholds evaluated
  | function first params body =>
    cases has
    cases List.mem_singleton.1 mem
    exact inherited.closure _ rfl
  | struct struct fields =>
    cases has
    obtain ⟨⟨other, v⟩, inside, same⟩ := List.mem_map.1 mem
    cases same
    exact inherited.struct _ _ v inside

/-- A definition passes the property on. -/
theorem Upholds.runDefinition (upholds : s.Upholds frame K) (inherited : Inherited frame K)
    {d : Definition} {r : FormResult} (h : s.runDefinition fuel frame d = some (r, t)) :
    t.Upholds frame K ∧ ∀ result ∈ r.outcomes, K result := by
  refine ⟨⟨upholds.home.runDefinition h, fun name result filled => ?_⟩, ?_⟩
  · rcases result_of_runDefinition upholds.home.there h filled with before | ⟨entries, has, mem⟩
    · exact upholds.stored name result before
    · exact upholds.entries inherited has mem
  · exact outcomes_of_runDefinition h (fun _ _ _ evaluated => inherited.evaluated upholds evaluated)
      fun _ _ _ _ _ => inherited.closure _ rfl

/-- The outcomes in a result have the property. Of a test that waits nothing is said. -/
def Pending.Upheld (K : Except EvalError Value → Prop) : Pending → Prop
  | .done r => ∀ result ∈ r.outcomes, K result
  | .waiting _ => True

/-- **One form** passes the property on. -/
theorem Upholds.runForm (upholds : s.Upholds frame K) (inherited : Inherited frame K) {form : Form}
    {pending : Pending} (h : s.runForm fuel frame form = some (pending, t)) :
    t.Upholds frame K ∧ pending.Upheld K := by
  cases form with
  | definition d =>
    obtain ⟨⟨r, after⟩, defined, built⟩ := Option.bind_eq_some_iff.1 h
    cases built
    exact upholds.runDefinition inherited defined
  | expression e =>
    obtain ⟨result, evaluated, built⟩ := Option.bind_eq_some_iff.1 h
    have holds := inherited.evaluated upholds evaluated
    cases result <;> cases built <;> exact ⟨upholds, List.forall_mem_singleton.2 holds⟩
  | check c =>
    cases h
    exact ⟨upholds, trivial⟩
  | malformed e =>
    cases h
    exact ⟨upholds, List.forall_mem_nil _⟩

/-- Forms pass the property on. -/
theorem Upholds.runForms (upholds : s.Upholds frame K) (inherited : Inherited frame K)
    {forms : List Form} {pendings : List Pending}
    (h : s.runForms fuel frame forms = some (pendings, t)) :
    t.Upholds frame K ∧ ∀ pending ∈ pendings, pending.Upheld K := by
  induction forms generalizing s pendings with
  | nil =>
    cases h
    exact ⟨upholds, List.forall_mem_nil _⟩
  | cons form forms ih =>
    obtain ⟨first, middle, rest, now, later, rfl⟩ := runForms_cons h
    obtain ⟨middleUpholds, here⟩ := upholds.runForm inherited now
    obtain ⟨last, others⟩ := ih middleUpholds later
    exact ⟨last, List.forall_mem_cons.2 ⟨here, others⟩⟩

/-- Tests pass the property on. -/
theorem Upholds.settle (upholds : s.Upholds frame K) (inherited : Inherited frame K)
    {pendings : List Pending} (all : ∀ pending ∈ pendings, pending.Upheld K)
    {results : List FormResult} (h : s.settle fuel frame pendings = some results) :
    ∀ r ∈ results, ∀ result ∈ r.outcomes, K result := by
  induction pendings generalizing results with
  | nil =>
    cases h
    exact List.forall_mem_nil _
  | cons pending pendings ih =>
    obtain ⟨r, rest, now, later, rfl⟩ := settle_cons h
    obtain ⟨here, others⟩ := List.forall_mem_cons.1 all
    refine List.forall_mem_cons.2 ⟨?_, ih others later⟩
    cases pending with
    | done r' =>
      cases now
      exact here
    | waiting c =>
      obtain ⟨outcome, ran, built⟩ := Option.bind_eq_some_iff.1 now
      cases built
      exact Check.outcomes_of_run inherited.refused
        (fun _ _ _ evaluated => inherited.evaluated upholds evaluated) ran

/-- **All outcomes in the results of a program have the property** if all that is stored has it. -/
theorem Upholds.run (upholds : s.Upholds frame K) (inherited : Inherited frame K)
    {forms : List Form} {results : List FormResult}
    (h : s.run fuel frame forms = some (results, t)) :
    ∀ r ∈ results, ∀ result ∈ r.outcomes, K result := by
  obtain ⟨pendings, passed, settled⟩ := run_eq_some_iff.1 h
  obtain ⟨last, all⟩ := (upholds.reserveAll _).runForms inherited passed
  exact last.settle inherited all settled

/-- All that is stored has the property at every moment of a program. -/
theorem Upholds.storeBefore (upholds : s.Upholds frame K) (inherited : Inherited frame K)
    {forms : List Form} {i : Nat} {before : Store}
    (h : s.storeBefore? fuel frame forms i = some before) : before.Upholds frame K := by
  obtain ⟨⟨pendings, last⟩, ran, built⟩ := Option.bind_eq_some_iff.1 h
  cases built
  exact ((upholds.reserveAll _).runForms inherited ran).1

end Store

end Tyro
