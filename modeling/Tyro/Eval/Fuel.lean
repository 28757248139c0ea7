import Tyro.Eval.Basic

/-!
# More fuel

Fuel decides only whether an evaluation gets to its end, never what it comes to: `evalAtFuel_mono`
says that an answer that was reached with some fuel is reached with any more. The lemmas before it
say the same of the parts of an evaluation, for any two evaluators of which the second agrees with
the first wherever the first gets to an end.
-/

namespace Tyro

/-- The second evaluator gets to the same end wherever the first gets to one. -/
def Eval.Agrees {α : Type} (eval eval' : α → Answer Value) : Prop :=
  ∀ e, eval e ≠ .outOfFuel → eval' e = eval e

namespace Answer

variable {α β : Type}

/-- A chain that gets to an end has a first part that does. -/
theorem ne_outOfFuel_of_bind {a : Answer α} {next : α → Answer β}
    (h : (a >>= next) ≠ .outOfFuel) : a ≠ .outOfFuel := by
  rintro rfl
  exact h rfl

/-- Two chains agree if their first parts do, and what follows agrees on every result. -/
theorem bind_agree {a a' : Answer α} {next next' : α → Answer β}
    (first : a ≠ .outOfFuel → a' = a)
    (rest : ∀ x, next x ≠ .outOfFuel → next' x = next x)
    (h : (a >>= next) ≠ .outOfFuel) : (a' >>= next') = (a >>= next) := by
  rw [first (ne_outOfFuel_of_bind h)]
  cases a with
  | result x => exact rest x h
  | error e => rfl
  | outOfFuel => rfl

end Answer

namespace Eval

variable {eval eval' : Expr → Answer Value}

theorem all_agree (agree : Agrees eval eval') (es : List Expr) (h : all eval es ≠ .outOfFuel) :
    all eval' es = all eval es := by
  induction es with
  | nil => rfl
  | cons e es ih =>
    simp only [all] at h ⊢
    exact Answer.bind_agree (agree e)
      (fun v => Answer.bind_agree ih fun vs _ => rfl) h

theorem question_agree (agree : Agrees eval eval') (form q : Expr)
    (h : question eval form q ≠ .outOfFuel) : question eval' form q = question eval form q := by
  simp only [question] at h ⊢
  exact Answer.bind_agree (agree q) (fun v _ => rfl) h

theorem clauses_agree (agree : Agrees eval eval') (form : Expr) (cs : Clauses)
    (h : clauses eval form cs ≠ .outOfFuel) : clauses eval' form cs = clauses eval form cs := by
  match cs with
  | .none => rfl
  | .otherwise answer => exact agree answer h
  | .clause q answer rest =>
    simp only [clauses] at h ⊢
    refine Answer.bind_agree (question_agree agree form q) (fun b hb => ?_) h
    cases b with
    | true => exact agree answer hb
    | false => exact clauses_agree agree form rest hb

theorem operands_agree (agree : Agrees eval eval') (form : Expr) (c : Connective) (es : List Expr)
    (h : operands eval form c es ≠ .outOfFuel) :
    operands eval' form c es = operands eval form c es := by
  induction es with
  | nil => rfl
  | cons e es ih =>
    simp only [operands] at h ⊢
    refine Answer.bind_agree (question_agree agree form e) (fun b hb => ?_) h
    by_cases settled : b = c.settledBy
    · simp only [settled, if_true]
    · simp only [settled, if_false] at hb ⊢
      exact ih hb

theorem apply_agree {s : Store} {run run' : Scope → Expr → Answer Value}
    (agree : ∀ scope, Agrees (run scope) (run' scope)) (f : Value) (args : List Value) (call : Expr)
    (h : apply s run f args call ≠ .outOfFuel) :
    apply s run' f args call = apply s run f args call := by
  cases f with
  | closure f =>
    simp only [apply] at h ⊢
    refine Answer.bind_agree (fun _ => rfl) (fun _ hb => ?_) h
    by_cases live : s.isLive f.home = true
    · simp only [live, if_true] at hb ⊢
      exact agree _ f.body hb
    · simp only [live, Bool.false_eq_true, if_false]
  | _ => rfl

end Eval

namespace Store

/-- One more step of fuel keeps every answer. -/
theorem evalAtFuel_succ (s : Store) (fuel : Nat) (scope : Scope) :
    Eval.Agrees (s.evalAtFuel fuel scope) (s.evalAtFuel (fuel + 1) scope) := by
  induction fuel generalizing scope with
  | zero => exact fun e h => absurd rfl h
  | succ fuel ih =>
    intro e h
    cases e with
    | string | number | boolean | name | template => rfl
    | call function args =>
      simp only [evalAtFuel] at h ⊢
      exact Answer.bind_agree (fun _ => rfl)
        (fun f => Answer.bind_agree (Eval.all_agree (ih scope) args)
          fun vs => Eval.apply_agree ih f vs _) h
    | ifElse q yes no =>
      simp only [evalAtFuel] at h ⊢
      refine Answer.bind_agree (Eval.question_agree (ih scope) _ q) (fun b hb => ?_) h
      cases b with
      | true => exact ih scope yes hb
      | false => exact ih scope no hb
    | cond cs => exact Eval.clauses_agree (ih scope) _ cs h
    | logical c es => exact Eval.operands_agree (ih scope) _ c es h

/-- An answer that is reached with some fuel is reached with any more. -/
theorem evalAtFuel_mono (s : Store) {fuel more : Nat} (le : fuel ≤ more) (scope : Scope) :
    Eval.Agrees (s.evalAtFuel fuel scope) (s.evalAtFuel more scope) := by
  induction le with
  | refl => exact fun e _ => rfl
  | step _ ih =>
    intro e h
    have same := ih e h
    rw [evalAtFuel_succ s _ scope e (same ▸ h), same]

end Store

end Tyro
