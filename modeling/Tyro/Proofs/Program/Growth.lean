import Tyro.Proofs.Program.Moments
import Tyro.Proofs.Program.Reached
import Tyro.Proofs.Store.Growth

/-!
# Programs that grow

A program is run by itself, and as the beginning of a longer one, from the same store. The forms of
the first program come to the same both times, up to errors about names that only the rest binds
(`FormResult.later`), and up to tests that met such an error. If all definitions of the first
program have got a value, then the rest comes to what it comes to when it is run afterwards.

* `Grows.runDefinition`, `Grows.runForm` and `Grows.runForms` carry the correspondence of the two
  stores through the second pass.
* `Check.run_keeps` says which tests keep their results when the store has grown.
* `runForms_reserveAll` says that the names of the rest may just as well be reserved after the first
  program has run.

An error that an earlier program has left in a slot is met again as it is, whatever is bound now:
this is the exception in `results_of_grown_program`, and `stored_error_stays` shows that it cannot
be left out.
-/

namespace Tyro

/-- The result as it is in a program that binds further names. -/
def FormResult.later (names : List String) : FormResult → FormResult
  | .failed e => .failed (e.later names)
  | .unbound (.value e) => .unbound (.value (e.later names))
  | r => r

/-- The error of evaluation that the result is. -/
def FormResult.error? : FormResult → Option EvalError
  | .failed e => some e
  | .unbound (.value e) => some e
  | _ => none

/-- The results that may come of one in a program that binds further names. -/
def FormResult.Grown (names : List String) (stored : EvalError → Prop) (r r' : FormResult) : Prop :=
  r' = r.later names ∨ r' = r ∧ ∃ e, r.error? = some e ∧ stored e

/-- The results and waiting tests that may come of one in a program that binds further names. -/
def Store.Pending.Grown (names : List String) (stored : EvalError → Prop) :
    Store.Pending → Store.Pending → Prop
  | .done r, pending => ∃ r', pending = .done r' ∧ r.Grown names stored r'
  | .waiting c, pending => pending = .waiting c

/-- Without stored errors there is one result that may come of another. -/
theorem FormResult.Grown.eq_later {names : List String} {stored : EvalError → Prop}
    {r r' : FormResult} (h : r.Grown names stored r') (clean : ∀ e, ¬ stored e) :
    r' = r.later names := by
  rcases h with later | ⟨-, e, -, kept⟩
  · exact later
  · exact absurd kept (clean e)

/-- An evaluation fails with what may come of its error. -/
theorem FormResult.grown_failed {names : List String} {stored : EvalError → Prop} {e e' : EvalError}
    (h : e.Grown names stored e') : (FormResult.failed e).Grown names stored (.failed e') := by
  rcases h with rfl | ⟨rfl, kept⟩
  · exact .inl rfl
  · exact .inr ⟨rfl, e', rfl, kept⟩

/-- A definition has no value with what may come of its error. -/
theorem FormResult.grown_unbound {names : List String} {stored : EvalError → Prop}
    {e e' : EvalError} (h : e.Grown names stored e') :
    (FormResult.unbound (.value e)).Grown names stored (.unbound (.value e')) := by
  rcases h with rfl | ⟨rfl, kept⟩
  · exact .inl rfl
  · exact .inr ⟨rfl, e', rfl, kept⟩

/-! ## Tests -/

namespace Check

/-- The result of the test is one of its kind that compares or reports values only. -/
def ReportsValues : Check → CheckResult → Prop
  | .error _ _, .noError _ => True
  | .error _ _, _ => False
  | _, .success => True
  | _, .differs _ _ => True
  | _, .notWithin _ _ _ => True
  | _, _ => False

variable {eval eval' : Expr → Option (Except EvalError Value)}

/-- A test of an error that meets one does not report a value. -/
theorem not_reportsValues_compareError {actual : Expr} {message : Option Expr} (e : EvalError)
    (wanted : Option String) :
    ¬ (Check.error actual message).ReportsValues (compareError e wanted) := by
  unfold compareError
  split
  · split <;> exact id
  · exact id

/-- Where a failure would show in the result, two evaluators that have the same values go on with
the same value. -/
theorem bind_of_keeps {α β : Type} {x x' : Option (Except EvalError α)}
    {k k' : Except EvalError α → Option β} {r : β}
    (keeps : ∀ v, x = some (.ok v) → x' = some (.ok v)) (h : x.bind k = some r)
    (fails : ∀ e, k (.error e) ≠ some r) (goesOn : ∀ v, k (.ok v) = some r → k' (.ok v) = some r) :
    x'.bind k' = some r := by
  obtain ⟨a, evaluated, h⟩ := Option.bind_eq_some_iff.1 h
  cases a with
  | error e => exact absurd h (fails e)
  | ok v => exact Option.bind_eq_some_iff.2 ⟨_, keeps v evaluated, goesOn v h⟩

/-- The message that a test expects is the same with an evaluator that has the same values. -/
theorem expectedMessage_keeps (keeps : ∀ e v, eval e = some (.ok v) → eval' e = some (.ok v))
    {message : Option Expr} {wanted : Option String}
    (h : expectedMessage eval message = some (.ok wanted)) :
    expectedMessage eval' message = some (.ok wanted) := by
  cases message with
  | none => exact h
  | some m =>
    refine bind_of_keeps (keeps m) h ?_ fun v h => h
    intro e failed
    cases failed

/-- A test that reports values only has the same result with an evaluator that has these values. -/
theorem run_keeps (keeps : ∀ e v, eval e = some (.ok v) → eval' e = some (.ok v)) {c : Check}
    {r : CheckResult} (h : c.run eval = some r) (values : c.ReportsValues r) :
    c.run eval' = some r := by
  cases c with
  | expect actual expected =>
    refine bind_of_keeps (keeps expected) h ?_ fun v h => ?_
    · rintro e ⟨⟩
      exact values
    · refine bind_of_keeps (keeps actual) h ?_ fun w h => h
      rintro e ⟨⟩
      exact values
  | within actual expected delta =>
    refine bind_of_keeps (keeps expected) h ?_ fun v h => ?_
    · rintro e ⟨⟩
      exact values
    · refine bind_of_keeps (keeps delta) h ?_ fun d h => ?_
      · rintro e ⟨⟩
        exact values
      · cases number : toleranceOf (.ok d) with
        | error e =>
          rw [number] at h
          cases h
          exact values.elim
        | ok x =>
          rw [number] at h
          refine bind_of_keeps (keeps actual) h ?_ fun w h => h
          rintro e ⟨⟩
          exact values
  | error actual message =>
    refine bind_of_keeps (fun _ => expectedMessage_keeps keeps) h ?_ fun wanted h => ?_
    · rintro e ⟨⟩
      exact values
    · refine bind_of_keeps (keeps actual) h ?_ fun w h => h
      rintro e ⟨⟩
      exact not_reportsValues_compareError e wanted values

end Check

namespace Store

variable {names : List String} {stored : EvalError → Prop} {frame : FrameId} {fuel : Nat}
  {s t : Store}

/-! ## The second pass in both stores -/

/-- A constant comes in the second store to what may come of its result in the first. -/
theorem Grows.runConstant (g : Grows names stored frame s t) {name : String} {body : Expr}
    (has : (s.slot? frame name).isSome = true) {r : FormResult} {s' : Store}
    (h : s.runDefinition fuel frame (.constant name body) = some (r, s')) :
    ∃ r' t', t.runDefinition fuel frame (.constant name body) = some (r', t') ∧
      r.Grown names stored r' ∧ Grows names stored frame s' t' := by
  obtain ⟨result, evaluated, h⟩ := Option.bind_eq_some_iff.1 h
  obtain ⟨result', evaluated', grown⟩ := g.eval? evaluated
  have value : ∀ v, result = .ok v → v.AtHome frame := by
    rintro v rfl
    exact g.home.atHome_eval? evaluated
  rcases g.fill has grown value with
    ⟨after, after', filled, filled', g'⟩ | ⟨e, refused, refused'⟩
  · rw [filled] at h
    cases result with
    | ok v =>
      cases h
      cases grown
      refine ⟨.bound name v, after', ?_, .inl rfl, g'⟩
      exact Option.bind_eq_some_iff.2 ⟨_, evaluated', by rw [filled']; rfl⟩
    | error e =>
      cases h
      obtain ⟨e', rfl, grown⟩ := grown
      refine ⟨.unbound (.value e'), after', ?_, FormResult.grown_unbound grown, g'⟩
      exact Option.bind_eq_some_iff.2 ⟨_, evaluated', by rw [filled']; rfl⟩
  · rw [refused] at h
    cases h
    have same : (FormResult.unbound e).later names = .unbound e := by
      obtain ⟨-, rfl⟩ := (fill_eq_error_iff has).1 refused
      rfl
    refine ⟨.unbound e, t, ?_, .inl same.symm, g⟩
    exact Option.bind_eq_some_iff.2 ⟨_, evaluated', by rw [refused']; rfl⟩

/-- A function definition has the same result in the second store. -/
theorem Grows.runFunction (g : Grows names stored frame s t) {name : String}
    {params : List String} {body : Expr} (has : (s.slot? frame name).isSome = true)
    {r : FormResult} {s' : Store}
    (h : s.runDefinition fuel frame (.function name params body) = some (r, s')) :
    ∃ r' t', t.runDefinition fuel frame (.function name params body) = some (r', t') ∧
      r.Grown names stored r' ∧ Grows names stored frame s' t' := by
  simp only [Store.runDefinition] at h ⊢
  have value : ∀ v, (.ok (.closure ⟨name, params, body, frame⟩) : Except EvalError Value) = .ok v →
      v.AtHome frame := by
    rintro v ⟨⟩
    exact .closure rfl
  have grown : Tyro.Grown names stored (.ok (.closure ⟨name, params, body, frame⟩))
      (.ok (.closure ⟨name, params, body, frame⟩)) := rfl
  rcases g.fill has grown value with
    ⟨after, after', filled, filled', g'⟩ | ⟨e, refused, refused'⟩
  · rw [filled] at h
    rw [filled']
    cases h
    exact ⟨_, _, rfl, .inl rfl, g'⟩
  · rw [refused] at h
    rw [refused']
    cases h
    obtain ⟨-, rfl⟩ := (fill_eq_error_iff has).1 refused
    exact ⟨_, _, rfl, .inl rfl, g⟩

/-- A structure definition has the same result in the second store. -/
theorem Grows.runStruct (g : Grows names stored frame s t) {name : String} {fields : List String}
    (has : ∀ other ∈ structNames name fields, (s.slot? frame other).isSome = true)
    {r : FormResult} {s' : Store}
    (h : s.runDefinition fuel frame (.struct name fields) = some (r, s')) :
    ∃ r' t', t.runDefinition fuel frame (.struct name fields) = some (r', t') ∧
      r.Grown names stored r' ∧ Grows names stored frame s' t' := by
  obtain ⟨type, gNew⟩ := g.newStruct name fields
  have hasNew := isSome_slot?_newStruct has
  obtain ⟨refusal, g'⟩ := gNew.fillAll hasNew fun _ _ => StructType.atHome_functions
  rw [runDefinition_struct] at h ⊢
  rw [type, refusal]
  cases h
  refine ⟨_, _, rfl, .inl ?_, g'⟩
  cases found : ((s.newStruct name fields).2.fillAll frame
      (s.newStruct name fields).1.functions).1 with
  | none => rfl
  | some e =>
    obtain ⟨other, -, rfl⟩ := (fillAll_fst_eq_some_iff gNew.home.there hasNew).1 found
    rfl

/-- A definition comes in the second store to what may come of its result in the first. -/
theorem Grows.runDefinition (g : Grows names stored frame s t) {d : Definition}
    (has : ∀ name ∈ d.boundNames, (s.slot? frame name).isSome = true) {r : FormResult} {s' : Store}
    (h : s.runDefinition fuel frame d = some (r, s')) :
    ∃ r' t', t.runDefinition fuel frame d = some (r', t') ∧ r.Grown names stored r' ∧
      Grows names stored frame s' t' := by
  cases d with
  | constant name body => exact g.runConstant (has name List.mem_cons_self) h
  | function name params body => exact g.runFunction (has name List.mem_cons_self) h
  | struct name fields => exact g.runStruct has h

/-- A form comes in the second store to what may come of its result in the first. -/
theorem Grows.runForm (g : Grows names stored frame s t) {form : Form}
    (has : ∀ name ∈ form.boundNames, (s.slot? frame name).isSome = true) {pending : Pending}
    {s' : Store} (h : s.runForm fuel frame form = some (pending, s')) :
    ∃ pending' t', t.runForm fuel frame form = some (pending', t') ∧
      pending.Grown names stored pending' ∧ Grows names stored frame s' t' := by
  cases form with
  | definition d =>
    obtain ⟨⟨r, after⟩, defined, built⟩ := Option.bind_eq_some_iff.1 h
    cases built
    obtain ⟨r', t', defined', grown, g'⟩ := g.runDefinition has defined
    refine ⟨.done r', t', ?_, ⟨r', rfl, grown⟩, g'⟩
    exact Option.bind_eq_some_iff.2 ⟨_, defined', rfl⟩
  | expression e =>
    obtain ⟨result, evaluated, built⟩ := Option.bind_eq_some_iff.1 h
    obtain ⟨result', evaluated', grown⟩ := g.eval? evaluated
    cases result with
    | ok v =>
      cases built
      cases grown
      refine ⟨.done (.value v), t, ?_, ⟨_, rfl, .inl rfl⟩, g⟩
      exact Option.bind_eq_some_iff.2 ⟨_, evaluated', rfl⟩
    | error e =>
      cases built
      obtain ⟨e', rfl, grown⟩ := grown
      refine ⟨.done (.failed e'), t, ?_, ⟨_, rfl, FormResult.grown_failed grown⟩, g⟩
      exact Option.bind_eq_some_iff.2 ⟨_, evaluated', rfl⟩
  | check c =>
    cases h
    exact ⟨_, _, rfl, rfl, g⟩
  | malformed e =>
    cases h
    exact ⟨_, _, rfl, ⟨_, rfl, .inl rfl⟩, g⟩

/-- Forms lead from corresponding stores to corresponding stores. -/
theorem Grows.runForms (g : Grows names stored frame s t) {forms : List Form}
    (has : ∀ name ∈ forms.flatMap Form.boundNames, (s.slot? frame name).isSome = true)
    {pendings : List Pending} {s' : Store}
    (h : s.runForms fuel frame forms = some (pendings, s')) :
    ∃ pendings' t', t.runForms fuel frame forms = some (pendings', t') ∧
      Grows names stored frame s' t' := by
  induction forms generalizing s t pendings with
  | nil =>
    cases h
    exact ⟨_, _, rfl, g⟩
  | cons form forms ih =>
    obtain ⟨first, middle, rest, now, later, -⟩ := runForms_cons h
    obtain ⟨hasNow, hasLater⟩ := isSome_slot?_cons g.home.there has now
    obtain ⟨first', middle', now', -, g'⟩ := g.runForm hasNow now
    obtain ⟨rest', last', later', g''⟩ := ih g' hasLater later
    refine ⟨first' :: rest', last', ?_, g''⟩
    simp only [Store.runForms, now', Option.bind_eq_bind, Option.bind_some, later']
    rfl

/-! ## Reserving the names of the rest afterwards -/

/-- The form's definition, if it is one, has got a value or was refused. -/
def Pending.IsValued : Pending → Prop
  | .done (.unbound (.value _)) => False
  | _ => True

/-- A definition that has got a value leaves the same behind if further names are reserved before it
or after it. -/
theorem runDefinition_reserveAll (home : s.IsHome frame) {d : Definition}
    (has : ∀ name ∈ d.boundNames, (s.slot? frame name).isSome = true) {r : FormResult} {s' : Store}
    (h : s.runDefinition fuel frame d = some (r, s')) (valued : ∀ e, r ≠ .unbound (.value e))
    (names : List String) :
    ∃ r', (s.reserveAll frame names).runDefinition fuel frame d =
      some (r', s'.reserveAll frame names) := by
  cases d with
  | constant name body =>
    obtain ⟨result, evaluated, binds⟩ := runDefinition_constant h
    obtain ⟨result', evaluated', grown⟩ := (home.grows_reserveAll names).eval? evaluated
    have filling := fun x => fill_reserveAll home.there (has name List.mem_cons_self) x names
    cases binds with
    | refused refusal =>
      obtain ⟨taken, rfl⟩ := (fill_eq_error_iff (has name List.mem_cons_self)).1 refusal
      have refusal' : s.fill frame name result' = .error (.alreadyDefined name) :=
        (fill_eq_error_iff (has name List.mem_cons_self)).2 ⟨taken, rfl⟩
      refine ⟨.unbound (.alreadyDefined name), Option.bind_eq_some_iff.2 ⟨_, evaluated', ?_⟩⟩
      rw [filling, refusal']
      rfl
    | @bound v reserved =>
      cases grown
      refine ⟨.bound name v, Option.bind_eq_some_iff.2 ⟨_, evaluated', ?_⟩⟩
      rw [filling, fill_eq_ok_iff.2 ⟨reserved, rfl⟩]
      rfl
    | failed reserved => exact absurd rfl (valued _)
  | function name params body =>
    simp only [Store.runDefinition]
    rw [fill_reserveAll home.there (has name List.mem_cons_self)]
    cases runDefinition_function h with
    | refused refusal =>
      rw [refusal]
      exact ⟨_, rfl⟩
    | bound reserved =>
      rw [fill_eq_ok_iff.2 ⟨reserved, rfl⟩]
      exact ⟨_, rfl⟩
  | struct name fields =>
    have hasNew := isSome_slot?_newStruct has
    rw [runDefinition_struct] at h ⊢
    rw [newStruct_reserveAll]
    dsimp only
    rw [fillAll_reserveAll (home.newStruct name fields).there hasNew]
    cases h
    exact ⟨_, rfl⟩

/-- A form that has got a value leaves the same behind if further names are reserved before it or
after it. -/
theorem runForm_reserveAll (home : s.IsHome frame) {form : Form}
    (has : ∀ name ∈ form.boundNames, (s.slot? frame name).isSome = true) {pending : Pending}
    {s' : Store} (h : s.runForm fuel frame form = some (pending, s')) (valued : pending.IsValued)
    (names : List String) :
    ∃ pending', (s.reserveAll frame names).runForm fuel frame form =
      some (pending', s'.reserveAll frame names) := by
  cases form with
  | definition d =>
    obtain ⟨⟨r, after⟩, defined, built⟩ := Option.bind_eq_some_iff.1 h
    cases built
    have value : ∀ e, r ≠ .unbound (.value e) := by
      rintro e rfl
      exact valued
    obtain ⟨r', defined'⟩ := runDefinition_reserveAll home has defined value names
    exact ⟨.done r', Option.bind_eq_some_iff.2 ⟨_, defined', rfl⟩⟩
  | expression e =>
    obtain ⟨result, evaluated, built⟩ := Option.bind_eq_some_iff.1 h
    obtain ⟨result', evaluated', -⟩ := (home.grows_reserveAll names).eval? evaluated
    have same : s' = s := by cases result <;> cases built <;> rfl
    subst same
    cases result' with
    | ok v => exact ⟨_, Option.bind_eq_some_iff.2 ⟨_, evaluated', rfl⟩⟩
    | error e => exact ⟨_, Option.bind_eq_some_iff.2 ⟨_, evaluated', rfl⟩⟩
  | check c =>
    cases h
    exact ⟨_, rfl⟩
  | malformed e =>
    cases h
    exact ⟨_, rfl⟩

/-- Forms that have got values leave the same behind if further names are reserved before them or
after them. -/
theorem runForms_reserveAll (home : s.IsHome frame) {forms : List Form}
    (has : ∀ name ∈ forms.flatMap Form.boundNames, (s.slot? frame name).isSome = true)
    {pendings : List Pending} {s' : Store}
    (h : s.runForms fuel frame forms = some (pendings, s'))
    (valued : ∀ pending ∈ pendings, pending.IsValued) (names : List String) :
    ∃ pendings', (s.reserveAll frame names).runForms fuel frame forms =
      some (pendings', s'.reserveAll frame names) := by
  induction forms generalizing s pendings with
  | nil =>
    cases h
    exact ⟨_, rfl⟩
  | cons form forms ih =>
    obtain ⟨first, middle, rest, now, later, rfl⟩ := runForms_cons h
    obtain ⟨hasNow, hasLater⟩ := isSome_slot?_cons home.there has now
    obtain ⟨first', now'⟩ :=
      runForm_reserveAll home hasNow now (valued first List.mem_cons_self) names
    obtain ⟨rest', later'⟩ := ih (home.runForm now) hasLater later
      fun pending mem => valued pending (List.mem_cons_of_mem first mem)
    refine ⟨first' :: rest', ?_⟩
    simp only [Store.runForms, now', Option.bind_eq_bind, Option.bind_some, later']
    rfl

/-! ## The two runs -/

/-- Two second passes that begin in corresponding stores leave at each place what may come of one
another. -/
theorem Grows.runForms_getElem? (g : Grows names stored frame s t) {forms : List Form}
    (has : ∀ name ∈ forms.flatMap Form.boundNames, (s.slot? frame name).isSome = true)
    {pendings pendings' : List Pending} {s' t' : Store}
    (h : s.runForms fuel frame forms = some (pendings, s'))
    (h' : t.runForms fuel frame forms = some (pendings', t')) {i : Nat} {form : Form}
    (place : forms[i]? = some form) :
    ∃ pending pending', pendings[i]? = some pending ∧ pendings'[i]? = some pending' ∧
      pending.Grown names stored pending' ∧
      ∃ before after : Store, before.runForm fuel frame form = some (pending, after) := by
  obtain ⟨first, before, pending, after, ranBefore, now, waits⟩ := Store.runForms_getElem? h place
  obtain ⟨first', before', pending', after', ranBefore', now', waits'⟩ :=
    Store.runForms_getElem? h' place
  have hasBefore : ∀ name ∈ (forms.take i).flatMap Form.boundNames,
      (s.slot? frame name).isSome = true := by
    intro name mem
    refine has name ?_
    rw [← flatMap_take_append_drop forms i]
    exact List.mem_append_left _ mem
  obtain ⟨again, before'', same, gBefore⟩ := g.runForms hasBefore ranBefore
  rw [same] at ranBefore'
  cases ranBefore'
  have hasNow : ∀ name ∈ form.boundNames, (before.slot? frame name).isSome = true := by
    intro name mem
    have bound := has name (List.mem_flatMap.2 ⟨form, List.mem_of_getElem? place, mem⟩)
    exact isSome_slot?_runForms g.home.there ranBefore bound
  obtain ⟨pending'', after'', again', grown, -⟩ := gBefore.runForm hasNow now
  rw [now'] at again'
  cases again'
  exact ⟨pending, pending', waits, waits', grown, before, after, now⟩

end Store

/-- What becomes of the result of a form in a program that binds further names: a syntax error
stays, a test that reports values only keeps its result, and a definition or an expression comes to
what may come of its result. -/
def Form.Keeps (names : List String) (stored : EvalError → Prop) (r r' : FormResult) : Form → Prop
  | .definition _ => r.Grown names stored r'
  | .expression _ => r.Grown names stored r'
  | .check c => ∀ x, r = .check x → c.ReportsValues x → r' = r
  | .malformed e => r = .malformed e ∧ r' = .malformed e

namespace Store

variable {frame : FrameId} {s : Store}

/-- What comes of a result is what it is settled to. -/
theorem Pending.grown_settle {names : List String} {stored : EvalError → Prop} {t : Store}
    {fuel : Nat} {r₀ r r' : FormResult} {pending : Pending}
    (grown : (Pending.done r₀).Grown names stored pending)
    (h : s.settle fuel frame [.done r₀] = some [r])
    (h' : t.settle fuel frame [pending] = some [r']) : r.Grown names stored r' := by
  obtain ⟨r₁, rfl, grown⟩ := grown
  cases h
  cases h'
  exact grown

/-- A test that reports values only is settled to the same result where the same values are. -/
theorem settle_keeps {t : Store} {fuel : Nat}
    (keeps : ∀ e v, s.eval? fuel frame e = some (.ok v) → t.eval? fuel frame e = some (.ok v))
    {c : Check} {x : CheckResult} {r' : FormResult}
    (h : s.settle fuel frame [.waiting c] = some [.check x])
    (h' : t.settle fuel frame [.waiting c] = some [r']) (values : c.ReportsValues x) :
    r' = .check x := by
  obtain ⟨y, ran, h⟩ := Option.bind_eq_some_iff.1 h
  cases h
  obtain ⟨y', ran', h'⟩ := Option.bind_eq_some_iff.1 h'
  cases h'
  rw [Check.run_keeps keeps ran values] at ran'
  cases ran'
  rfl

/-- The second passes of the two runs, from the moment at which the names of the first program are
reserved: the longer one has the names of the rest reserved besides. -/
theorem second_passes {p q : List Form} {alone whole : List FormResult} {s₁ s₂ : Store}
    {fuel : Nat} (ran : s.run fuel frame p = some (alone, s₁))
    (ran' : s.run fuel frame (p ++ q) = some (whole, s₂)) :
    ∃ pendings first middle rest,
      (s.reserveAll frame (p.flatMap Form.boundNames)).runForms fuel frame p =
        some (pendings, s₁) ∧ s₁.settle fuel frame pendings = some alone ∧
      ((s.reserveAll frame (p.flatMap Form.boundNames)).reserveAll frame
        (q.flatMap Form.boundNames)).runForms fuel frame p = some (first, middle) ∧
      middle.runForms fuel frame q = some (rest, s₂) ∧
        s₂.settle fuel frame (first ++ rest) = some whole := by
  obtain ⟨pendings, passed, settled⟩ := run_eq_some_iff.1 ran
  obtain ⟨pendings', passed', settled'⟩ := run_eq_some_iff.1 ran'
  rw [List.flatMap_append, reserveAll_append] at passed'
  obtain ⟨first, middle, rest, passedFirst, passedRest, rfl⟩ := runForms_append passed'
  exact ⟨pendings, first, middle, rest, passed, settled, passedFirst, passedRest, settled'⟩

/-- The two second passes begin in corresponding stores. -/
theorem IsHome.grows_start (home : s.IsHome frame) (p q : List Form) :
    Grows (q.flatMap Form.boundNames) (s.HoldsError frame) frame
      (s.reserveAll frame (p.flatMap Form.boundNames))
      ((s.reserveAll frame (p.flatMap Form.boundNames)).reserveAll frame
        (q.flatMap Form.boundNames)) := by
  have g := (home.reserveAll (p.flatMap Form.boundNames)).grows_reserveAll
    (q.flatMap Form.boundNames)
  rwa [holdsError_reserveAll home.there] at g

/-- What an expression evaluates to after the first program, it evaluates to after the longer
one. -/
theorem eval?_keeps_of_runs (home : s.IsHome frame) {p q : List Form}
    {alone whole : List FormResult} {s₁ s₂ : Store} {fuel : Nat}
    (ran : s.run fuel frame p = some (alone, s₁))
    (ran' : s.run fuel frame (p ++ q) = some (whole, s₂)) (e : Expr) (v : Value)
    (evaluated : s₁.eval? fuel frame e = some (.ok v)) :
    s₂.eval? fuel frame e = some (.ok v) := by
  obtain ⟨pendings, first, middle, rest, passed, -, passedFirst, passedRest, -⟩ :=
    second_passes ran ran'
  refine ((home.run ran).eval?_keeps (home.run ran') (fun name w found => ?_) evaluated).1
  have g := home.grows_start p q
  obtain ⟨again, middle', passedAgain, gAfter⟩ :=
    g.runForms (fun _ => isSome_slot?_reserveAll home.there) passed
  rw [passedFirst] at passedAgain
  cases passedAgain
  obtain ⟨-, entries, -, -, slots⟩ := runForms_spec gAfter.home'.there passedRest
  have slot := gAfter.slots name
  rw [found] at slot
  rw [slots]
  generalize middle.slot? frame name = b at slot
  cases slot with
  | filled grown =>
    cases grown
    rfl

/-- A form of the first program has in the longer one what may come of its result. -/
theorem keeps_of_runs (home : s.IsHome frame) {p q : List Form} {alone whole : List FormResult}
    {s₁ s₂ : Store} {fuel : Nat} (ran : s.run fuel frame p = some (alone, s₁))
    (ran' : s.run fuel frame (p ++ q) = some (whole, s₂)) {i : Nat} {form : Form}
    (place : p[i]? = some form) :
    ∃ r r', alone[i]? = some r ∧ whole[i]? = some r' ∧
      form.Keeps (q.flatMap Form.boundNames) (s.HoldsError frame) r r' := by
  obtain ⟨pendings, first, middle, rest, passed, settled, passedFirst, passedRest, settled'⟩ :=
    second_passes ran ran'
  have g := home.grows_start p q
  have has : ∀ name ∈ p.flatMap Form.boundNames,
      ((s.reserveAll frame (p.flatMap Form.boundNames)).slot? frame name).isSome = true :=
    fun _ => isSome_slot?_reserveAll home.there
  obtain ⟨pending, pending', waits, waits', grown, before, after, now⟩ :=
    g.runForms_getElem? has passed passedFirst place
  have place' : (first ++ rest)[i]? = some pending' := by
    obtain ⟨inside, -⟩ := List.getElem?_eq_some_iff.1 waits'
    rwa [List.getElem?_append_left inside]
  obtain ⟨r, result, settledHere⟩ := settle_getElem? settled waits
  obtain ⟨r', result', settledHere'⟩ := settle_getElem? settled' place'
  refine ⟨r, r', result, result', ?_⟩
  cases form with
  | definition d =>
    obtain ⟨⟨r₀, after'⟩, -, built⟩ := Option.bind_eq_some_iff.1 now
    cases built
    exact Pending.grown_settle grown settledHere settledHere'
  | expression e =>
    obtain ⟨r₀, same⟩ : ∃ r₀, pending = .done r₀ := by
      obtain ⟨x, -, built⟩ := Option.bind_eq_some_iff.1 now
      cases x <;> cases built <;> exact ⟨_, rfl⟩
    subst same
    exact Pending.grown_settle grown settledHere settledHere'
  | check c =>
    cases now
    cases grown
    rintro x rfl values
    exact settle_keeps (eval?_keeps_of_runs home ran ran') settledHere settledHere' values
  | malformed e =>
    cases now
    have kept := Pending.grown_settle grown settledHere settledHere'
    cases settledHere
    rcases kept with same | ⟨same, -⟩ <;> exact ⟨rfl, same⟩

/-- If all definitions of the first program have got values, the rest runs in the longer program as
it runs afterwards. -/
theorem run_rest_of_runs (home : s.IsHome frame) {p q : List Form} {alone whole : List FormResult}
    {s₁ s₂ : Store} {fuel : Nat} (ran : s.run fuel frame p = some (alone, s₁))
    (ran' : s.run fuel frame (p ++ q) = some (whole, s₂))
    (valued : ∀ e, .unbound (.value e) ∉ alone) :
    s₁.run fuel frame q = some (whole.drop p.length, s₂) := by
  obtain ⟨pendings, first, middle, rest, passed, settled, passedFirst, passedRest, settled'⟩ :=
    second_passes ran ran'
  have valuedAll : ∀ pending ∈ pendings, pending.IsValued := by
    intro pending mem
    obtain ⟨i, waits⟩ := List.getElem?_of_mem mem
    obtain ⟨r, result, settledHere⟩ := settle_getElem? settled waits
    cases pending with
    | waiting c => trivial
    | done r₀ =>
      cases settledHere
      unfold Pending.IsValued
      split
      · next e same =>
        cases same
        exact valued e (List.mem_of_getElem? result)
      · trivial
  obtain ⟨again, passedAgain⟩ := runForms_reserveAll (home.reserveAll _)
    (fun _ => isSome_slot?_reserveAll home.there) passed valuedAll (q.flatMap Form.boundNames)
  rw [passedFirst] at passedAgain
  cases passedAgain
  obtain ⟨results, results', settledFirst, settledRest, rfl⟩ := settle_append settled'
  have length : results.length = p.length := by
    rw [length_settle settledFirst, length_runForms passedFirst]
  rw [List.drop_left' length]
  exact run_eq_some_iff.2 ⟨rest, passedRest, settledRest⟩

/-- A program that is run by itself and as the beginning of a longer one, from the same store:

* A syntax error stays, and a test that reports values only keeps its result. A definition or an
  expression has the same result, except that the error that a name of the rest is not defined
  becomes the error that it is defined later. An error that was left in the frame before both runs
  may also stay as it is.
* If no error was left in the frame before, definitions and expressions have exactly this result.
* If every definition of the program has got a value, the forms of the rest have the results, and
  leave the store, that they have and leave when the rest is run afterwards. -/
theorem results_of_grown_program (start : Reached frame s) {p q : List Form}
    {alone whole : List FormResult} {s₁ s₂ : Store} (ranAlone : s.Runs frame p alone s₁)
    (ranWhole : s.Runs frame (p ++ q) whole s₂) :
    (∀ (i : Nat) (form : Form), p[i]? = some form → ∃ r r',
      alone[i]? = some r ∧ whole[i]? = some r' ∧
        form.Keeps (q.flatMap Form.boundNames) (s.HoldsError frame) r r') ∧
    ((∀ e, ¬ s.HoldsError frame e) → ∀ (i : Nat) (form : Form), p[i]? = some form →
      (∀ c, form ≠ .check c) → ∃ r, alone[i]? = some r ∧
        whole[i]? = some (r.later (q.flatMap Form.boundNames))) ∧
    ((∀ e, .unbound (.value e) ∉ alone) → s₁.Runs frame q (whole.drop p.length) s₂) := by
  obtain ⟨fuel₁, ran₁⟩ := ranAlone
  obtain ⟨fuel₂, ran₂⟩ := ranWhole
  have home := start.isHome
  have ran := s.run_mono (Nat.le_max_left fuel₁ fuel₂) frame p _ ran₁
  have ran' := s.run_mono (Nat.le_max_right fuel₁ fuel₂) frame (p ++ q) _ ran₂
  refine ⟨fun i form place => keeps_of_runs home ran ran' place, ?_,
    fun valued => ⟨_, run_rest_of_runs home ran ran' valued⟩⟩
  intro clean i form place noCheck
  obtain ⟨r, r', result, result', kept⟩ := keeps_of_runs home ran ran' place
  refine ⟨r, result, result'.trans (congrArg some ?_)⟩
  cases form with
  | definition d => exact kept.eq_later clean
  | expression e => exact kept.eq_later clean
  | check c => exact absurd rfl (noCheck c)
  | malformed e =>
    obtain ⟨rfl, rfl⟩ := kept
    rfl

/-- In a fresh library, a program meets a name that only a further definition binds. -/
theorem results_of_grown_program_in_library :
    let p : List Form := [.expression (.name "n"), .definition (.constant "a" (.boolean true))]
    let q : List Form := [.definition (.constant "n" (.name "a"))]
    ∃ alone whole s₁ s₂, Reached 0 empty.newLibrary.2 ∧ empty.newLibrary.2.Runs 0 p alone s₁ ∧
      empty.newLibrary.2.Runs 0 (p ++ q) whole s₂ ∧
        alone[0]? = some (.failed (.about "n" .undefined)) ∧
        whole[0]? = some (.failed (.about "n" .definedLater)) ∧ s₁.Runs 0 q (whole.drop 2) s₂ := by
  intro p q
  have start : Reached 0 empty.newLibrary.2 := .fresh empty
  refine ⟨_, _, _, _, start, ⟨3, rfl⟩, ⟨3, rfl⟩, rfl, ?_, ?_⟩
  · obtain ⟨-, exactly, -⟩ := results_of_grown_program start (p := p) (q := q) ⟨3, rfl⟩ ⟨3, rfl⟩
    obtain ⟨r, first, later⟩ := exactly (not_holdsError_newLibrary empty) 0 _ rfl nofun
    cases first
    exact later
  · obtain ⟨-, -, rest⟩ := results_of_grown_program start (p := p) (q := q) ⟨3, rfl⟩ ⟨3, rfl⟩
    refine rest fun e mem => ?_
    rcases List.mem_cons.1 mem with absurd | mem
    · cases absurd
    · cases List.mem_singleton.1 mem

/-- An error that an earlier program has left in a slot is met again as it is. The constant `x` is
left with the error that `n` is not defined; this is what `x` comes to, also in a program that binds
`n` afterwards. -/
theorem stored_error_stays :
    ¬ ∀ (s : Store) (frame : FrameId) (p q : List Form) (alone whole : List FormResult)
      (s₁ s₂ : Store), Reached frame s → s.Runs frame p alone s₁ → s.Runs frame (p ++ q) whole s₂ →
      ∀ (i : Nat) (e : Expr) (r : FormResult), p[i]? = some (.expression e) →
        alone[i]? = some r → whole[i]? = some (r.later (q.flatMap Form.boundNames)) := by
  intro grown
  have reached := @Reached.run 0 _ _ [.definition (.constant "x" (.name "n"))] _ (.fresh empty)
    ⟨3, rfl⟩
  have later := grown _ 0 [.expression (.name "x")]
    [.definition (.constant "n" (.number 1))] _ _ _ _ reached ⟨3, rfl⟩ ⟨3, rfl⟩ 0 (.name "x") _
    rfl rfl
  have fault := congrArg (fun x => (x.bind FormResult.error?).map EvalError.fault) later
  cases fault

end Store

end Tyro
