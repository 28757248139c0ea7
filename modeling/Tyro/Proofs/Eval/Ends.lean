import Mathlib.Order.Filter.AtTopBot.Basic
import Tyro.Proofs.Eval.Follows

/-!
# Evaluations that get to an end

`Answer.Ends Q a` says of an answer that depends on fuel that it is the same result or error from
some fuel on, and that the result satisfies `Q`. Chains of such answers get to an end
(`Ends.bind`), and so do the forms of the language if their parts do.

Only the application of a function that a program defined evaluates something that is no part of the
expression. So an expression gets to an end if the functions do that it calls
(`Store.evalAtFuel_ends`). Which functions these are depends on the values of the names in it:
`Expr.Mentions` and `Expr.Calls` tell names that are only passed on from those that are called.
-/

namespace Tyro

/-! ## Names in expressions -/

/-- The name stands in the expression, as a variable or as the function of a call. -/
inductive Expr.Mentions (word : String) : Expr → Prop
  | name : Mentions word (.name word)
  | part {e part : Expr} (mem : part ∈ e.parts) (inside : Mentions word part) : Mentions word e

/-- The name is the function of a call in the expression. -/
inductive Expr.Calls (function : String) : Expr → Prop
  | call (args : List Expr) : Calls function (.call function args)
  | part {e part : Expr} (mem : part ∈ e.parts) (inside : Calls function part) : Calls function e

/-- A name mentions itself. -/
@[simp] theorem Expr.mentions_name {word other : String} :
    (Expr.name other).Mentions word ↔ word = other := by
  constructor
  · rintro (_ | ⟨mem, -⟩)
    · rfl
    · cases mem
  · rintro rfl
    exact .name

/-- A call mentions its function and what its arguments mention. -/
@[simp] theorem Expr.mentions_call {word function : String} {args : List Expr} :
    (Expr.call function args).Mentions word ↔ word = function ∨ ∃ e ∈ args, e.Mentions word := by
  constructor
  · rintro (_ | ⟨mem, inside⟩)
    rcases List.mem_cons.1 mem with rfl | mem
    · exact .inl (mentions_name.1 inside)
    · exact .inr ⟨_, mem, inside⟩
  · rintro (rfl | ⟨e, mem, inside⟩)
    · exact .part List.mem_cons_self .name
    · exact .part (List.mem_cons_of_mem _ mem) inside

/-- A name that is called is mentioned. -/
theorem Expr.Calls.mentions {function : String} {e : Expr} (h : e.Calls function) :
    e.Mentions function := by
  induction h with
  | call args => exact mentions_call.2 (.inl rfl)
  | part mem _ ih => exact .part mem ih

/-- The expressions of clauses are smaller than the clauses. -/
theorem Clauses.sizeOf_lt_of_mem {e : Expr} : {cs : Clauses} → e ∈ cs.exprs → sizeOf e < sizeOf cs
  | .none, mem => by cases mem
  | .otherwise answer, mem => by
    rw [List.mem_singleton.1 mem, Clauses.otherwise.sizeOf_spec]
    omega
  | .clause question answer rest, mem => by
    have size : sizeOf (Clauses.clause question answer rest) =
        1 + sizeOf question + sizeOf answer + sizeOf rest := rfl
    rcases List.mem_cons.1 mem with rfl | mem
    · omega
    · rcases List.mem_cons.1 mem with rfl | later
      · omega
      · have := sizeOf_lt_of_mem later
        omega

/-- The parts of an expression are smaller than it. -/
theorem Expr.sizeOf_lt_of_mem_parts {e part : Expr} (mem : part ∈ e.parts) :
    sizeOf part < sizeOf e := by
  cases e with
  | call function args =>
    rw [call.sizeOf_spec]
    rcases List.mem_cons.1 mem with rfl | mem
    · have positive : 0 < sizeOf args := by
        cases args with
        | nil => exact Nat.one_pos
        | cons arg args =>
          rw [List.cons.sizeOf_spec]
          omega
      rw [name.sizeOf_spec]
      omega
    · have : sizeOf part < sizeOf args := List.sizeOf_lt_of_mem mem
      omega
  | ifElse question yes no =>
    simp only [parts, List.mem_cons, List.not_mem_nil, or_false] at mem
    rw [ifElse.sizeOf_spec]
    rcases mem with rfl | rfl | rfl <;> omega
  | cond clauses =>
    have : sizeOf part < sizeOf clauses := Clauses.sizeOf_lt_of_mem mem
    rw [cond.sizeOf_spec]
    omega
  | logical connective operands =>
    have : sizeOf part < sizeOf operands := List.sizeOf_lt_of_mem mem
    rw [logical.sizeOf_spec]
    omega
  | _ => cases mem

/-- What holds of an expression if it holds of all its parts, holds of every expression. -/
theorem Expr.induction_parts {motive : Expr → Prop}
    (step : ∀ e, (∀ part ∈ e.parts, motive part) → motive e) (e : Expr) : motive e :=
  step e fun part _ => induction_parts step part
termination_by sizeOf e
decreasing_by exact sizeOf_lt_of_mem_parts ‹_›

/-! ## Answers -/

open Filter

namespace Answer

variable {α β : Type} {Q : α → Prop} {Q' : β → Prop} {a : Nat → Answer α}

/-- From some fuel on the answer is one result that satisfies the condition, or one error. -/
def Ends (Q : α → Prop) (a : Nat → Answer α) : Prop :=
  ∃ r, (∀ᶠ fuel in atTop, a fuel = .ofExcept r) ∧ ∀ x, r = .ok x → Q x

/-- What does not depend on fuel is an end. -/
theorem ends_ofExcept {r : Except EvalError α} (holds : ∀ x, r = .ok x → Q x) :
    Ends Q fun _ => .ofExcept r :=
  ⟨r, .of_forall fun _ => rfl, holds⟩

/-- A result is an end. -/
theorem ends_result {x : α} (holds : Q x) : Ends Q fun _ => .result x := by
  refine ends_ofExcept (r := .ok x) ?_
  rintro y ⟨⟩
  exact holds

/-- An error is an end. -/
theorem ends_error (e : EvalError) : Ends Q fun _ => .error e :=
  ends_ofExcept (r := .error e) nofun

/-- What gets to an end with a step more of fuel gets to one. -/
theorem Ends.of_succ (h : Ends Q fun fuel => a (fuel + 1)) : Ends Q a := by
  obtain ⟨r, same, holds⟩ := h
  refine ⟨r, ?_, holds⟩
  rw [← map_add_atTop_eq_nat 1]
  exact same

/-- A chain gets to an end if its first part does and all that may follow. -/
theorem Ends.bind (first : Ends Q a) {next : Nat → α → Answer β}
    (rest : ∀ x, Q x → Ends Q' fun fuel => next fuel x) :
    Ends Q' fun fuel => a fuel >>= next fuel := by
  obtain ⟨r, same, holds⟩ := first
  cases r with
  | error e =>
    refine ⟨.error e, ?_, nofun⟩
    filter_upwards [same] with fuel now
    rw [now]
    rfl
  | ok x =>
    obtain ⟨r', same', holds'⟩ := rest x (holds x rfl)
    refine ⟨r', ?_, holds'⟩
    filter_upwards [same, same'] with fuel now later
    rw [now]
    exact later

/-- An answer that has not run out of fuel is a result or an error. -/
theorem exists_ofExcept {b : Answer α} (h : b ≠ .outOfFuel) : ∃ r, b = .ofExcept r := by
  cases b with
  | result x => exact ⟨.ok x, rfl⟩
  | error e => exact ⟨.error e, rfl⟩
  | outOfFuel => exact absurd rfl h

/-- The result or error of an answer that gets to an end. -/
theorem Ends.finished? (h : Ends Q a) :
    ∃ r, (∀ᶠ fuel in atTop, (a fuel).finished? = some r) ∧ ∀ x, r = .ok x → Q x := by
  obtain ⟨r, same, holds⟩ := h
  refine ⟨r, ?_, holds⟩
  filter_upwards [same] with fuel now
  rw [now]
  cases r <;> rfl

end Answer

open Answer

/-! ## Options -/

section Options

variable {α β : Type} {x : Nat → Option α}

/-- From some fuel on there is one result. -/
def Completes (x : Nat → Option α) : Prop := ∃ a, ∀ᶠ fuel in atTop, x fuel = some a

/-- What does not depend on fuel is there from the first. -/
theorem completes_const {x : Option α} (there : x.isSome = true) : Completes fun _ => x :=
  ⟨x.get there, .of_forall fun _ => (Option.some_get there).symm⟩

/-- A chain is complete if its first part is and all that may follow. -/
theorem Completes.bind (first : Completes x) {next : Nat → α → Option β}
    (rest : ∀ fuel a, x fuel = some a → Completes fun fuel => next fuel a) :
    Completes fun fuel => x fuel >>= next fuel := by
  obtain ⟨a, same⟩ := first
  obtain ⟨enough, now⟩ := same.exists
  obtain ⟨b, same'⟩ := rest enough a now
  refine ⟨b, ?_⟩
  filter_upwards [same, same'] with fuel now later
  rw [now]
  exact later

end Options

/-! ## Parts of an evaluation -/

namespace Eval

variable {eval : Nat → Expr → Answer Value} {Q : Value → Prop}

/-- Several expressions get to an end one after the other. -/
theorem all_ends {es : List Expr} (each : ∀ e ∈ es, Ends Q fun fuel => eval fuel e) :
    Ends (fun vs => ∀ v ∈ vs, Q v) fun fuel => all (eval fuel) es := by
  induction es with
  | nil => exact ends_result (List.forall_mem_nil _)
  | cons e es ih =>
    obtain ⟨first, others⟩ := List.forall_mem_cons.1 each
    refine first.bind fun v holds => ?_
    refine (ih others).bind fun vs all => ?_
    exact ends_result (List.forall_mem_cons.2 ⟨holds, all⟩)

/-- A question gets to an end. -/
theorem question_ends {form q : Expr} (asked : Ends Q fun fuel => eval fuel q) :
    Ends (fun _ => True) fun fuel => question (eval fuel) form q := by
  refine asked.bind fun v _ => ?_
  cases v.boolean? with
  | some b => exact ends_result trivial
  | none => exact ends_error _

/-- Clauses get to an end. -/
theorem clauses_ends {form : Expr} : {cs : Clauses} →
    (∀ e ∈ cs.exprs, Ends Q fun fuel => eval fuel e) →
      Ends Q fun fuel => clauses (eval fuel) form cs
  | .none, _ => ends_error _
  | .otherwise answer, each => each answer List.mem_cons_self
  | .clause q answer rest, each => by
    obtain ⟨asked, each⟩ := List.forall_mem_cons.1 each
    obtain ⟨answered, others⟩ := List.forall_mem_cons.1 each
    refine (question_ends asked).bind fun b _ => ?_
    cases b with
    | true => exact answered
    | false => exact clauses_ends others

/-- The operands of a logical form get to an end. -/
theorem operands_ends (boolean : ∀ b, Q (.boolean b)) {form : Expr} {connective : Connective}
    {es : List Expr} (each : ∀ e ∈ es, Ends Q fun fuel => eval fuel e) :
    Ends Q fun fuel => operands (eval fuel) form connective es := by
  induction es with
  | nil => exact ends_result (boolean _)
  | cons e es ih =>
    obtain ⟨first, others⟩ := List.forall_mem_cons.1 each
    refine (question_ends first).bind fun b _ => ?_
    by_cases settled : b = connective.settledBy
    · simp only [if_pos settled]
      exact ends_result (boolean _)
    · simp only [if_neg settled]
      exact ih others

/-- Only a function that a program defined needs fuel to be applied. -/
theorem apply_ne_outOfFuel {s : Store} {run : Scope → Expr → Answer Value} {v : Value}
    (other : ∀ f, v ≠ .closure f) (args : List Value) (call : Expr) :
    apply s run v args call ≠ .outOfFuel := by
  have done (r : Except EvalError Value) : Answer.ofExcept r ≠ .outOfFuel := by
    cases r <;> nofun
  have counted (r : Except EvalError Unit) (w : Value) :
      (Answer.ofExcept r >>= fun _ => Answer.result w) ≠ .outOfFuel := by
    cases r <;> nofun
  cases v with
  | closure f => exact absurd rfl (other f)
  | builtin f => exact done _
  | accessor type index => exact done _
  | constructor type => exact counted _ _
  | predicate type => exact counted _ _
  | string | number | boolean | struct => nofun

/-- What holds of values at home passes from a function that no program defined, and its arguments,
to what its application comes to. -/
theorem apply_ends_of_not_closure (hereditary : Value.Hereditary Q) (s : Store) {frame : FrameId}
    {v : Value} (other : ∀ f, v ≠ .closure f) (function : v.AtHome frame ∧ Q v) {args : List Value}
    (all : ∀ a ∈ args, a.AtHome frame ∧ Q a) (call : Expr)
    (run : Nat → Scope → Expr → Answer Value) :
    Ends (fun w => w.AtHome frame ∧ Q w) fun fuel => apply s (run fuel) v args call := by
  let idle (_ : Scope) (_ : Expr) : Answer Value := .outOfFuel
  have same (fuel : Nat) : apply s (run fuel) v args call = apply s idle v args call := by
    cases v with
    | closure f => exact absurd rfl (other f)
    | _ => rfl
  have reached : apply s idle v args call ≠ .outOfFuel := apply_ne_outOfFuel other args call
  obtain ⟨r, done⟩ := exists_ofExcept reached
  have follows : Follows (fun v w => w = v ∧ v.AtHome frame ∧ Q v) (fun _ _ => True)
      (apply s idle v args call) (apply s idle v args call) := by
    refine apply_follows (hereditary.correspondence frame) (tolerant_true _) rfl ?_
      ⟨rfl, function⟩ (forall₂_self_iff.2 ⟨rfl, all⟩) call
    exact fun _ _ _ _ _ => trivial
  refine ⟨r, .of_forall fun fuel => (same fuel).trans done, ?_⟩
  rintro w rfl
  rw [done] at follows
  obtain ⟨u, same, rfl, holds⟩ := follows
  exact holds

end Eval

/-! ## The evaluator -/

namespace Store

variable {s : Store} {scope : Scope} {frame : FrameId} {Q : Value → Prop}

/-- **An expression gets to an end** if what its names stand for satisfies a hereditary condition,
and if applying the functions that it calls to such arguments gets to an end. -/
theorem evalAtFuel_ends (hereditary : Value.Hereditary Q) {e : Expr}
    (names : ∀ name, e.Mentions name → ∀ v, scope.lookup s name = .ok v → v.AtHome frame ∧ Q v)
    (calls : ∀ name, e.Calls name → ∀ f, scope.lookup s name = .ok (.closure f) →
      ∀ args call, (∀ a ∈ args, a.AtHome frame ∧ Q a) →
        Ends (fun v => v.AtHome frame ∧ Q v)
          fun fuel => s.applyAtFuel fuel (.closure f) args call) :
    Ends (fun v => v.AtHome frame ∧ Q v) fun fuel => s.evalAtFuel fuel scope e := by
  induction e using Expr.induction_parts with
  | step e ih =>
    have each : ∀ part ∈ e.parts,
        Ends (fun v => v.AtHome frame ∧ Q v) fun fuel => s.evalAtFuel fuel scope part := by
      intro part mem
      exact ih part mem (fun name inside => names name (.part mem inside))
        fun name inside => calls name (.part mem inside)
    apply Ends.of_succ
    cases e with
    | string content => exact ends_result ⟨.string content, hereditary.string content⟩
    | number value => exact ends_result ⟨.number value, hereditary.number value⟩
    | boolean value => exact ends_result ⟨.boolean value, hereditary.boolean value⟩
    | name word => exact ends_ofExcept (names word .name)
    | template dots => exact ends_error _
    | call function args =>
      have looked : Ends (fun v => scope.lookup s function = .ok v)
          fun _ => .ofExcept (scope.lookup s function) := ends_ofExcept fun v found => found
      refine looked.bind fun v found => ?_
      refine (Eval.all_ends (List.forall_mem_cons.1 each).2).bind fun vs all => ?_
      by_cases closure : ∃ f, v = .closure f
      · obtain ⟨f, rfl⟩ := closure
        exact calls function (.call args) f found vs _ all
      · have here := names function (Expr.Calls.call args).mentions v found
        exact Eval.apply_ends_of_not_closure hereditary s (fun f same => closure ⟨f, same⟩) here all
          _ _
    | ifElse question yes no =>
      obtain ⟨asked, each⟩ := List.forall_mem_cons.1 each
      obtain ⟨whenTrue, each⟩ := List.forall_mem_cons.1 each
      refine (Eval.question_ends asked).bind fun b _ => ?_
      cases b with
      | true => exact whenTrue
      | false => exact each no List.mem_cons_self
    | cond clauses => exact Eval.clauses_ends each
    | logical connective operands =>
      exact Eval.operands_ends (fun b => ⟨.boolean b, hereditary.boolean b⟩) each

end Store

/-! ## Tests -/

/-- A test gets to an end if its parts do. -/
theorem Check.completes_run {eval : Nat → Expr → Option (Except EvalError Value)}
    (each : ∀ e, Completes fun fuel => eval fuel e) (c : Check) :
    Completes fun fuel => c.run (eval fuel) := by
  cases c with
  | expect actual expected =>
    refine (each expected).bind fun _ r _ => ?_
    cases r with
    | error e => exact completes_const rfl
    | ok expected =>
      refine (each actual).bind fun _ r _ => ?_
      cases r <;> exact completes_const rfl
  | within actual expected delta =>
    refine (each expected).bind fun _ r _ => ?_
    cases r with
    | error e => exact completes_const rfl
    | ok expected =>
      refine (each delta).bind fun _ r _ => ?_
      cases toleranceOf r with
      | error e => exact completes_const rfl
      | ok delta =>
        refine (each actual).bind fun _ r _ => ?_
        cases r <;> exact completes_const rfl
  | error actual message =>
    have wanted : Completes fun fuel => expectedMessage (eval fuel) message := by
      cases message with
      | none => exact completes_const rfl
      | some m => exact (each m).bind fun _ _ _ => completes_const rfl
    refine wanted.bind fun _ r _ => ?_
    cases r with
    | error e => exact completes_const rfl
    | ok expected =>
      refine (each actual).bind fun _ r _ => ?_
      cases r <;> exact completes_const rfl

end Tyro
