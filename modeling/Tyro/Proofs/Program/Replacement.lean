import Tyro.Proofs.Program.Fuel
import Tyro.Proofs.Store.Settling

/-!
# Constants and their defining expressions

`Expr.Replaced x e c c'` says that `c'` is `c` with some occurrences of the name `x` replaced by
`e`. The function of a call is a name, not an expression, and is never replaced.

Where `x` stands for the value that `e` has, evaluation does not tell `c'` from `c`
(`evalAtFuel_replaced`): whatever is evaluated inside of them is, part by part, the same or again a
replacement. A definition of a constant that binds its name makes `x` stand for the value that `e`
has just then. As slots settle both stay true, so that `constant_replaced` holds at every later
moment of the run.
-/

namespace Tyro

open Answer

/-- The second expression is the first one with some occurrences of a name replaced. -/
inductive Expr.Replaced (x : String) (e : Expr) : Expr → Expr → Prop
  | stays (c : Expr) : Replaced x e c c
  | here : Replaced x e (.name x) e
  | call (function : String) {args args' : List Expr}
    (inside : List.Forall₂ (Replaced x e) args args') :
    Replaced x e (.call function args) (.call function args')
  | ifElse {q q' yes yes' no no' : Expr} (asked : Replaced x e q q')
    (whenTrue : Replaced x e yes yes') (whenFalse : Replaced x e no no') :
    Replaced x e (.ifElse q yes no) (.ifElse q' yes' no')
  | cond {cs cs' : Clauses} (inside : cs.Related (Replaced x e) cs') :
    Replaced x e (.cond cs) (.cond cs')
  | logical (connective : Connective) {es es' : List Expr}
    (inside : List.Forall₂ (Replaced x e) es es') :
    Replaced x e (.logical connective es) (.logical connective es')

/-- Two errors with one message, reported against expressions that differ by a replacement. -/
def EvalError.Replaced (x : String) (e : Expr) (err err' : EvalError) : Prop :=
  err'.fault = err.fault ∧ Expr.Replaced x e err.context err'.context

/-- An error comes of it that differs by a replacement. -/
def EvalError.IsReplaced (x : String) (e : Expr) (err : EvalError) (other : Option EvalError) :
    Prop :=
  ∃ err', other = some err' ∧ err.Replaced x e err'

namespace Expr

variable {x : String} {e : Expr}

/-- An error may stay as it is. -/
theorem isReplaced_self (err : EvalError) : err.IsReplaced x e (some err) :=
  ⟨err, rfl, rfl, .stays _⟩

/-- Errors have to stay errors. -/
theorem tolerant_isReplaced : Tolerant Eq (EvalError.IsReplaced x e) where
  corresponding err err' corresponds := by
    rw [corresponds.eq fun _ _ same => same.symm]
    exact isReplaced_self err
  any err gone := by
    obtain ⟨err', missing, -⟩ := gone
    cases missing

/-- An error may be reported against the form with replacements. -/
theorem Replaced.blames {c c' : Expr} (replaced : Expr.Replaced x e c c') :
    Blames Eq (EvalError.IsReplaced x e) c c' := by
  intro fault fault' corresponds
  have same : (⟨c, fault'⟩ : EvalError) = ⟨c, fault⟩ :=
    EvalError.Corresponds.eq ⟨rfl, corresponds⟩ fun _ _ same => same.symm
  cases same
  exact ⟨_, rfl, rfl, replaced⟩

end Expr

namespace Store

variable {s t : Store} {frame : FrameId} {fuel : Nat} {x : String} {e c c' : Expr} {v : Value}

/-- **Where a name stands for the value of an expression, it can be replaced by it.** The induction
is on the depth of the evaluation. It takes the depth of `e` in addition, since `e` may come in the
place of a name anywhere. -/
theorem evalAtFuel_replaced (known : (Scope.top frame).lookup t x = .ok v) {depth : Nat}
    (evaluated : t.evalAtFuel depth (.top frame) e = .result v) (fuel : Nat)
    (replaced : Expr.Replaced x e c c') :
    Follows Eq (EvalError.IsReplaced x e) (t.evalAtFuel fuel (.top frame) c)
      (t.evalAtFuel (fuel + depth) (.top frame) c') := by
  have tolerant := Expr.tolerant_isReplaced (x := x) (e := e)
  have stays := Expr.isReplaced_self (x := x) (e := e)
  have deeper (fuel : Nat) (scope : Scope) (c : Expr) : Follows Eq (EvalError.IsReplaced x e)
      (t.evalAtFuel fuel scope c) (t.evalAtFuel (fuel + depth) scope c) :=
    follows_of_agree stays (t.evalAtFuel_mono (Nat.le_add_right fuel depth) scope c)
  induction fuel generalizing c c' with
  | zero => trivial
  | succ fuel ih =>
    have parts {es es' : List Expr} (inside : List.Forall₂ (Expr.Replaced x e) es es') :=
      inside.imp fun _ _ replaced => ih replaced
    have blame := replaced.blames
    have more : fuel + 1 + depth = fuel + depth + 1 := Nat.add_right_comm fuel 1 depth
    cases replaced with
    | stays => exact deeper (fuel + 1) _ c
    | here =>
      have value : t.evalAtFuel (fuel + 1) (.top frame) (.name x) = .result v :=
        congrArg Answer.ofExcept known
      have value' : t.evalAtFuel (fuel + 1 + depth) (.top frame) e = .result v := by
        rw [t.evalAtFuel_mono (Nat.le_add_left depth _) _ e (by rw [evaluated]; nofun), evaluated]
      rw [value, value']
      exact follows_result rfl
    | call function inside =>
      rw [more]
      refine (follows_self stays).bind tolerant fun f g same => ?_
      refine (Eval.all_follows tolerant (parts inside)).bind tolerant fun vs ws all => ?_
      rw [List.forall₂_eq_eq_eq] at all
      rw [← same, ← all]
      exact Eval.apply_follows_self tolerant stays (fun _ => rfl) (deeper fuel) blame f vs
    | ifElse asked whenTrue whenFalse =>
      rw [more]
      refine (Eval.question_follows tolerant keepsTruth_eq blame (ih asked)).bind tolerant
        fun b b' same => ?_
      cases same
      cases b with
      | true => exact ih whenTrue
      | false => exact ih whenFalse
    | cond inside =>
      rw [more]
      exact Eval.clauses_follows tolerant keepsTruth_eq blame
        (inside.imp fun _ _ replaced => ih replaced)
    | logical connective inside =>
      rw [more]
      exact Eval.operands_follows tolerant keepsTruth_eq blame connective (parts inside)

/-- So an expression that gets to its end at the top level does so with replacements, with the same
value or with an error that differs by a replacement. -/
theorem eval?_replaced (known : (Scope.top frame).lookup t x = .ok v) {depth : Nat}
    (evaluated : t.eval? depth frame e = some (.ok v)) (replaced : Expr.Replaced x e c c')
    {r : Except EvalError Value} (ended : t.eval? fuel frame c = some r) :
    ∃ r', t.eval? (fuel + depth) frame c' = some r' ∧
      Outcome (EvalError.Replaced x e) Eq r r' := by
  have follows := evalAtFuel_replaced known (finished?_eq_ok_iff.1 evaluated) fuel replaced
  cases r with
  | ok w =>
    rw [finished?_eq_ok_iff.1 ended] at follows
    obtain ⟨w', answer, same⟩ := follows
    exact ⟨.ok w', finished?_eq_ok_iff.2 answer, same⟩
  | error err =>
    rw [finished?_eq_error_iff.1 ended] at follows
    obtain ⟨err', answer, differs⟩ := follows
    exact ⟨.error err', finished?_eq_error_iff.2 (error?_eq_some_iff.1 answer), differs⟩

/-- A definition that binds a constant leaves the name with the value that the body has. -/
theorem slot?_of_constant {r : FormResult}
    (h : s.runDefinition fuel frame (.constant x e) = some (r, t)) (bound : r = .bound x v) :
    s.eval? fuel frame e = some (.ok v) ∧ t.slot? frame x = some (.filled (.ok v)) := by
  obtain ⟨result, evaluated, binds⟩ := runDefinition_constant h
  cases binds with
  | bound reserved =>
    cases bound
    refine ⟨evaluated, ?_⟩
    rw [slot?_setSlot (there_of_slot? reserved), if_pos rfl]
  | refused | failed => cases bound

/-- **A constant can be replaced by its defining expression.** In any run, with whatever frames and
structure types there are, let a definition bind the name `x` to a value. At every later moment, an
expression that gets to its end at the top level does so too with any occurrences of `x` replaced by
the body of the definition; and it ends with the same value, or with the same message against an
expression that differs by the replacement. -/
theorem constant_replaced {forms : List Form} {i j : Nat}
    (place : forms[i]? = some (.definition (.constant x e))) {before after : Store}
    (arrived : s.storeBefore? fuel frame forms i = some before)
    (bound : before.runDefinition fuel frame (.constant x e) = some (.bound x v, after))
    (later : i < j) (moment : s.storeBefore? fuel frame forms j = some t)
    (replaced : Expr.Replaced x e c c') :
    (∀ n r, t.eval? n frame c = some r → ∃ n' r', t.eval? n' frame c' = some r') ∧
      ∀ n n' r r', t.eval? n frame c = some r → t.eval? n' frame c' = some r' →
        Outcome (EvalError.Replaced x e) Eq r r' := by
  obtain ⟨evaluated, filled⟩ := slot?_of_constant bound rfl
  have since : before.Settles t := settles_storeBefore (Nat.le_of_lt later) arrived moment
  have now : before.runForm fuel frame (.definition (.constant x e)) =
      some (.done (.bound x v), after) := Option.bind_eq_some_iff.2 ⟨_, bound, rfl⟩
  have settles : after.Settles t := settles_after place arrived now later moment
  have value : t.eval? fuel frame e = some (.ok v) :=
    finished?_eq_ok_iff.2 (since.evalAtFuel_result (finished?_eq_ok_iff.1 evaluated))
  have known : (Scope.top frame).lookup t x = .ok v :=
    lookup_top_of_slot? (settles.slot?_filled filled)
  refine ⟨fun n r ended => ?_, fun n n' r r' ended ended' => ?_⟩
  · obtain ⟨r', ended', -⟩ := eval?_replaced known value replaced ended
    exact ⟨_, r', ended'⟩
  · obtain ⟨r'', ended'', differs⟩ := eval?_replaced known value replaced ended
    rwa [eval?_unique ended' ended'']

/-- A constant that is a string, defined by a call and asked as a question after one more
definition: the error is the same when the call stands in its place, up to the call itself. -/
theorem constant_replaced_in_question :
    let s := empty.newTop.2
    let body := Expr.call "f" [.string "a"]
    let forms : List Form := [.definition (.function "f" ["p"] (.name "p")),
      .definition (.constant "x" body), .definition (.constant "y" (.name "x"))]
    let asks (q : Expr) := Expr.ifElse q (.name "x") (.name "y")
    ∃ before after t, forms[1]? = some (.definition (.constant "x" body)) ∧
      s.storeBefore? 3 0 forms 1 = some before ∧
      before.runDefinition 3 0 (.constant "x" body) = some (.bound "x" (.string "a"), after) ∧
      s.storeBefore? 3 0 forms 3 = some t ∧ Expr.Replaced "x" body (asks (.name "x")) (asks body) ∧
      ∃ err err', t.eval? 3 0 (asks (.name "x")) = some (.error err) ∧
        t.eval? 3 0 (asks body) = some (.error err') ∧
        err'.fault = .notBoolean (.string "a") ∧ EvalError.Replaced "x" body err err' := by
  intro s body forms asks
  have replaced : Expr.Replaced "x" body (asks (.name "x")) (asks body) :=
    .ifElse .here (.stays _) (.stays _)
  obtain ⟨before, after, t, arrived, bound, moment, err, err', failed, failed', fault⟩ :
      ∃ before after t, s.storeBefore? 3 0 forms 1 = some before ∧
        before.runDefinition 3 0 (.constant "x" body) = some (.bound "x" (.string "a"), after) ∧
        s.storeBefore? 3 0 forms 3 = some t ∧ ∃ err err',
          t.eval? 3 0 (asks (.name "x")) = some (.error err) ∧
          t.eval? 3 0 (asks body) = some (.error err') ∧ err'.fault = .notBoolean (.string "a") :=
    ⟨_, _, _, rfl, rfl, rfl, _, _, rfl, rfl, rfl⟩
  obtain ⟨-, agree⟩ := constant_replaced rfl arrived bound (by decide) moment replaced
  exact ⟨before, after, t, rfl, arrived, bound, moment, replaced, err, err', failed, failed', fault,
    agree 3 3 _ _ failed failed'⟩

end Store

end Tyro
