import Tyro.Eval.Fuel
import Tyro.Program.Run

/-!
# Runs without their fuel

Fuel decides only whether a run gets to its end. What holds of evaluation holds of all that is built
on it, pass by pass, up to `Store.run_mono`. `Store.Runs` is a run that gets to its end with some
fuel, and `Store.Runs.unique` says that this leaves no choice.
-/

namespace Tyro

/-- A chain of two steps gets to the same end if each of its steps does. -/
theorem some_of_bind_mono {α β : Type} {x x' : Option α} {f g : α → Option β}
    (first : ∀ a, x = some a → x' = some a) (rest : ∀ a b, f a = some b → g a = some b) {b : β}
    (h : (x >>= f) = some b) : (x' >>= g) = some b := by
  obtain ⟨a, now, later⟩ := Option.bind_eq_some_iff.1 h
  exact Option.bind_eq_some_iff.2 ⟨a, first a now, rest a b later⟩

/-- What more fuel keeps does not depend on the fuel. -/
theorem eq_of_mono {α : Type} {f : Nat → Option α}
    (mono : ∀ {fuel more}, fuel ≤ more → ∀ a, f fuel = some a → f more = some a) {fuel fuel' : Nat}
    {a a' : α} (h : f fuel = some a) (h' : f fuel' = some a') : a = a' := by
  have whole := mono (Nat.le_max_left fuel fuel') a h
  have whole' := mono (Nat.le_max_right fuel fuel') a' h'
  exact Option.some.inj (whole.symm.trans whole')

/-- A test comes to the same with an evaluator that gets to the same ends. -/
theorem Check.run_mono {eval eval' : Expr → Option (Except EvalError Value)}
    (agree : ∀ e r, eval e = some r → eval' e = some r) (c : Check) {r : CheckResult}
    (h : c.run eval = some r) : c.run eval' = some r := by
  cases c with
  | expect actual expected =>
    refine some_of_bind_mono (agree expected) (fun a b h => ?_) h
    cases a with
    | error e => exact h
    | ok v => exact some_of_bind_mono (agree actual) (fun _ _ h => h) h
  | within actual expected delta =>
    refine some_of_bind_mono (agree expected) (fun a b h => ?_) h
    cases a with
    | error e => exact h
    | ok v =>
      refine some_of_bind_mono (agree delta) (fun d b h => ?_) h
      cases tolerance : toleranceOf d with
      | error e =>
        rw [tolerance] at h
        exact h
      | ok x =>
        rw [tolerance] at h
        exact some_of_bind_mono (agree actual) (fun _ _ h => h) h
  | error actual message =>
    have expected : ∀ a, expectedMessage eval message = some a →
        expectedMessage eval' message = some a := by
      cases message with
      | none => exact fun _ h => h
      | some m => exact fun a h => some_of_bind_mono (agree m) (fun _ _ h => h) h
    refine some_of_bind_mono expected (fun a b h => ?_) h
    cases a with
    | error e => exact h
    | ok wanted => exact some_of_bind_mono (agree actual) (fun _ _ h => h) h

namespace Store

variable {s : Store} {frame : FrameId} {fuel more : Nat}

/-- More fuel keeps the result of an expression. -/
theorem eval?_mono (s : Store) (le : fuel ≤ more) (frame : FrameId) (e : Expr)
    (r : Except EvalError Value) (h : s.eval? fuel frame e = some r) :
    s.eval? more frame e = some r := by
  unfold eval? at h ⊢
  have enough : s.evalAtFuel fuel (.top frame) e ≠ .outOfFuel := by
    intro out
    rw [out] at h
    cases h
  rwa [evalAtFuel_mono s le (.top frame) e enough]

/-- An expression that gets to an end gets to one end only. -/
theorem eval?_unique {e : Expr} {r r' : Except EvalError Value}
    (h : s.eval? fuel frame e = some r) (h' : s.eval? more frame e = some r') : r = r' :=
  eq_of_mono (fun le => s.eval?_mono le frame e) h h'

/-- More fuel keeps what a definition comes to. -/
theorem runDefinition_mono (s : Store) (le : fuel ≤ more) (frame : FrameId) (d : Definition)
    (x : FormResult × Store) (h : s.runDefinition fuel frame d = some x) :
    s.runDefinition more frame d = some x := by
  cases d with
  | constant name body => exact some_of_bind_mono (s.eval?_mono le frame body) (fun _ _ h => h) h
  | function name params body => exact h
  | struct name fields => exact h

/-- More fuel keeps what a form comes to. -/
theorem runForm_mono (s : Store) (le : fuel ≤ more) (frame : FrameId) (form : Form)
    (x : Pending × Store) (h : s.runForm fuel frame form = some x) :
    s.runForm more frame form = some x := by
  cases form with
  | definition d => exact some_of_bind_mono (s.runDefinition_mono le frame d) (fun _ _ h => h) h
  | expression e => exact some_of_bind_mono (s.eval?_mono le frame e) (fun _ _ h => h) h
  | check c => exact h
  | malformed e => exact h

/-- More fuel keeps what forms come to. -/
theorem runForms_mono (s : Store) (le : fuel ≤ more) (frame : FrameId) (forms : List Form)
    (x : List Pending × Store) (h : s.runForms fuel frame forms = some x) :
    s.runForms more frame forms = some x := by
  induction forms generalizing s x with
  | nil => exact h
  | cons form forms ih =>
    refine some_of_bind_mono (s.runForm_mono le frame form) (fun a b h => ?_) h
    exact some_of_bind_mono (ih a.2) (fun _ _ h => h) h

/-- More fuel keeps what tests come to. -/
theorem settle_mono (s : Store) (le : fuel ≤ more) (frame : FrameId) (pendings : List Pending)
    (x : List FormResult) (h : s.settle fuel frame pendings = some x) :
    s.settle more frame pendings = some x := by
  induction pendings generalizing x with
  | nil => exact h
  | cons pending pendings ih =>
    cases pending with
    | done r => exact some_of_bind_mono ih (fun _ _ h => h) h
    | waiting c =>
      have agree := fun e r => s.eval?_mono le frame e r
      refine some_of_bind_mono (fun a => Check.run_mono agree c) (fun a b h => ?_) h
      exact some_of_bind_mono ih (fun _ _ h => h) h

/-- More fuel keeps what a program comes to. -/
theorem run_mono (s : Store) (le : fuel ≤ more) (frame : FrameId) (forms : List Form)
    (x : List FormResult × Store) (h : s.run fuel frame forms = some x) :
    s.run more frame forms = some x := by
  refine some_of_bind_mono (runForms_mono _ le frame forms) (fun a b h => ?_) h
  exact some_of_bind_mono (settle_mono _ le frame _) (fun _ _ h => h) h

/-- The program gets to its end with a frame as its top level, with these results and this store. -/
def Runs (s : Store) (frame : FrameId) (forms : List Form) (results : List FormResult)
    (after : Store) : Prop :=
  ∃ fuel, s.run fuel frame forms = some (results, after)

/-- A program that gets to its end gets to one end only. -/
theorem Runs.unique {forms : List Form} {results results' : List FormResult}
    {after after' : Store} (h : s.Runs frame forms results after)
    (h' : s.Runs frame forms results' after') : results = results' ∧ after = after' := by
  obtain ⟨fuel, ran⟩ := h
  obtain ⟨fuel', ran'⟩ := h'
  exact Prod.mk.inj (eq_of_mono (fun le => s.run_mono le frame forms) ran ran')

end Store

end Tyro
