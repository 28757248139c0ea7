import Tyro.Proofs.Store.Settling

/-!
# The names that an evaluation looks up

An evaluation reads the store by looking names up, each in the scope that it has got to. `Enters`
has the evaluations that one evaluation comes to directly: of an argument if those before it have
values, of the body of a function that is called, of the branch that a question leads to. `LooksUp`
has all names that are looked up on the way.

* Nobody catches an error, so that a look-up that fails is the last thing that happens, and the
  evaluation fails with the error of the look-up (`LooksUp.evalAtFuel_error`).
* Nothing else is read than what is looked up and which frames are live (`evalAtFuel_congr`).

From these, `Settles.evalAtFuel_eq_or` says exactly when an evaluation notices that slots have
settled: if it has looked up a name that was reserved.
-/

namespace Tyro

namespace Eval

variable {eval eval' : Expr → Answer Value} {form e q : Expr} {es : List Expr} {error : EvalError}

/-! ## What is reached in lists and clauses -/

/-- An expression of a list that is reached, where each one before it has to pass. -/
inductive Reaches (passes : Expr → Prop) : List Expr → Expr → Prop
  | here (e : Expr) (es : List Expr) : Reaches passes (e :: es) e
  | later {first e : Expr} {es : List Expr} (passed : passes first)
    (further : Reaches passes es e) : Reaches passes (first :: es) e

/-- An expression of clauses that is reached: the questions up to the first true one, and then its
answer. -/
inductive ReachesClause (eval : Expr → Answer Value) : Clauses → Expr → Prop
  | otherwise (answer : Expr) : ReachesClause eval (.otherwise answer) answer
  | question (q answer : Expr) (rest : Clauses) : ReachesClause eval (.clause q answer rest) q
  | answer {q : Expr} (answer : Expr) (rest : Clauses) (yes : eval q = .result (.boolean true)) :
    ReachesClause eval (.clause q answer rest) answer
  | later {q answer e : Expr} {rest : Clauses} (no : eval q = .result (.boolean false))
    (further : ReachesClause eval rest e) : ReachesClause eval (.clause q answer rest) e

/-- The expression has a value. -/
def HasValue (eval : Expr → Answer Value) (e : Expr) : Prop := ∃ v, eval e = .result v

/-- The operand leaves a logical form to those after it. -/
def LeavesOpen (eval : Expr → Answer Value) (connective : Connective) (e : Expr) : Prop :=
  eval e = .result (.boolean !connective.settledBy)

/-- A question has an answer exactly if it is a truth value. -/
theorem question_eq_result_iff {b : Bool} :
    question eval form q = .result b ↔ eval q = .result (.boolean b) := by
  unfold question
  cases eval q with
  | result v => cases v <;> simp [Value.boolean?]
  | error e => exact iff_of_false nofun nofun
  | outOfFuel => exact iff_of_false nofun nofun

/-- A question fails with the error of what it asks. -/
theorem question_error (failed : eval q = .error error) : question eval form q = .error error := by
  rw [question, failed]
  rfl

/-- The error of an argument that is reached is that of the arguments. -/
theorem all_error (reached : Reaches (HasValue eval) es e) (failed : eval e = .error error) :
    all eval es = .error error := by
  induction reached with
  | here e es =>
    rw [all, failed]
    rfl
  | later passed _ ih =>
    obtain ⟨v, passed⟩ := passed
    rw [all, passed, ih failed]
    rfl

/-- The error of an operand that is reached is that of the logical form. -/
theorem operands_error {connective : Connective}
    (reached : Reaches (LeavesOpen eval connective) es e) (failed : eval e = .error error) :
    operands eval form connective es = .error error := by
  induction reached with
  | here e es =>
    rw [operands, question_error failed]
    rfl
  | later passed _ ih =>
    rw [operands, question_eq_result_iff.2 passed, Answer.result_bind, if_neg, ih failed]
    cases connective.settledBy <;> decide

/-- The error of a question or an answer that is reached is that of the clauses. -/
theorem clauses_error {cs : Clauses} (reached : ReachesClause eval cs e)
    (failed : eval e = .error error) : clauses eval form cs = .error error := by
  induction reached with
  | otherwise answer => exact failed
  | question q answer rest =>
    rw [clauses, question_error failed]
    rfl
  | answer answer rest yes =>
    rw [clauses, question_eq_result_iff.2 yes]
    exact failed
  | later no _ ih =>
    rw [clauses, question_eq_result_iff.2 no]
    exact ih failed

/-- Arguments have the same values if those that are reached do. -/
theorem all_congr (same : ∀ e, Reaches (HasValue eval) es e → eval' e = eval e) :
    all eval' es = all eval es := by
  induction es with
  | nil => rfl
  | cons e es ih =>
    rw [all, all, same e (.here e es)]
    cases evaluated : eval e with
    | result v => rw [ih fun e' reached => same e' (.later ⟨v, evaluated⟩ reached)]
    | error | outOfFuel => rfl

/-- A question is answered in the same way if what it asks is. -/
theorem question_congr (same : eval' q = eval q) :
    question eval' form q = question eval form q := by
  rw [question, question, same]

/-- Logical forms come to the same if the operands that are reached do. -/
theorem operands_congr {connective : Connective}
    (same : ∀ e, Reaches (LeavesOpen eval connective) es e → eval' e = eval e) :
    operands eval' form connective es = operands eval form connective es := by
  induction es with
  | nil => rfl
  | cons e es ih =>
    rw [operands, operands, question_congr (same e (.here e es))]
    cases asked : question eval form e with
    | result b =>
      rw [Answer.result_bind, Answer.result_bind]
      split
      · rfl
      · next unsettled =>
        have passed : LeavesOpen eval connective e := by
          rw [LeavesOpen, question_eq_result_iff.1 asked, Bool.eq_not_of_ne unsettled]
        exact ih fun e' reached => same e' (.later passed reached)
    | error | outOfFuel => rfl

/-- Clauses come to the same if the questions and the answer that are reached do. -/
theorem clauses_congr {cs : Clauses} (same : ∀ e, ReachesClause eval cs e → eval' e = eval e) :
    clauses eval' form cs = clauses eval form cs := by
  match cs with
  | .none => rfl
  | .otherwise answer => exact same answer (.otherwise answer)
  | .clause q answer rest =>
    rw [clauses, clauses, question_congr (same q (.question q answer rest))]
    cases asked : question eval form q with
    | result b =>
      have known := question_eq_result_iff.1 asked
      cases b with
      | true => exact same answer (.answer answer rest known)
      | false => exact clauses_congr fun e' reached => same e' (.later known reached)
    | error | outOfFuel => rfl

end Eval

namespace Store

variable {s t : Store} {fuel : Nat} {scope inner : Scope} {form e : Expr} {name : String}
  {error : EvalError}

/-! ## Look-ups -/

/-- The evaluations that the evaluation of a form comes to directly, with the scope of each. -/
inductive Enters (s : Store) (fuel : Nat) (scope : Scope) : Expr → Scope → Expr → Prop
  | argument {function : String} {args : List Expr} {f : Value} {e : Expr}
    (known : scope.lookup s function = .ok f)
    (reached : Eval.Reaches (Eval.HasValue (s.evalAtFuel fuel scope)) args e) :
    Enters s fuel scope (.call function args) scope e
  | body {function : String} {args : List Expr} {f : Closure} {vs : List Value}
    (known : scope.lookup s function = .ok (.closure f))
    (evaluated : Eval.all (s.evalAtFuel fuel scope) args = .result vs)
    (counted : Eval.checkCount f.name f.params.length vs = .ok ())
    (live : s.isLive f.home = true) :
    Enters s fuel scope (.call function args) ⟨.ofList (f.params.zip vs), f.home⟩ f.body
  | question (q yes no : Expr) : Enters s fuel scope (.ifElse q yes no) scope q
  | branch {q : Expr} (yes no : Expr) {b : Bool}
    (asked : s.evalAtFuel fuel scope q = .result (.boolean b)) :
    Enters s fuel scope (.ifElse q yes no) scope (if b then yes else no)
  | clause {cs : Clauses} {e : Expr}
    (reached : Eval.ReachesClause (s.evalAtFuel fuel scope) cs e) :
    Enters s fuel scope (.cond cs) scope e
  | operand {connective : Connective} {es : List Expr} {e : Expr}
    (reached : Eval.Reaches (Eval.LeavesOpen (s.evalAtFuel fuel scope) connective) es e) :
    Enters s fuel scope (.logical connective es) scope e

/-- The names that the evaluation of an expression looks up, with the scope of each look-up. -/
inductive LooksUp (s : Store) : Nat → Scope → Expr → Scope → String → Prop
  | name (fuel : Nat) (scope : Scope) (word : String) :
    LooksUp s (fuel + 1) scope (.name word) scope word
  | function (fuel : Nat) (scope : Scope) (function : String) (args : List Expr) :
    LooksUp s (fuel + 1) scope (.call function args) scope function
  | inside {fuel : Nat} {scope inner place : Scope} {form e : Expr} {name : String}
    (enters : s.Enters fuel scope form inner e) (looks : LooksUp s fuel inner e place name) :
    LooksUp s (fuel + 1) scope form place name

/-- The error of an evaluation that is entered ends the one that enters it. -/
theorem Enters.evalAtFuel_error (enters : s.Enters fuel scope form inner e)
    (failed : s.evalAtFuel fuel inner e = .error error) :
    s.evalAtFuel (fuel + 1) scope form = .error error := by
  cases enters with
  | argument known reached =>
    rw [evalAtFuel, known, Eval.all_error reached failed]
    rfl
  | body known evaluated counted live =>
    rw [evalAtFuel, known, evaluated]
    simp only [Answer.ofExcept, Answer.result_bind, Eval.apply, counted, live, if_true]
    exact failed
  | question q yes no =>
    rw [evalAtFuel, Eval.question_error failed]
    rfl
  | @branch q yes no b asked =>
    rw [evalAtFuel, Eval.question_eq_result_iff.2 asked]
    cases b <;> exact failed
  | clause reached => exact Eval.clauses_error reached failed
  | operand reached => exact Eval.operands_error reached failed

/-- A look-up that fails ends the evaluation with its error. -/
theorem LooksUp.evalAtFuel_error {place : Scope} (looks : s.LooksUp fuel scope e place name)
    (failed : place.lookup s name = .error error) : s.evalAtFuel fuel scope e = .error error := by
  induction looks with
  | name fuel scope word =>
    rw [evalAtFuel, failed]
    rfl
  | function fuel scope function args =>
    rw [evalAtFuel, failed]
    rfl
  | inside enters _ ih => exact enters.evalAtFuel_error (ih failed)

/-- **An evaluation depends on what it looks up.** In two stores with the same live frames, an
expression comes to the same if every name that is looked up on the way stands for the same. -/
theorem evalAtFuel_congr (live : ∀ id, t.isLive id = s.isLive id)
    (same : ∀ place name, s.LooksUp fuel scope e place name →
      place.lookup t name = place.lookup s name) :
    t.evalAtFuel fuel scope e = s.evalAtFuel fuel scope e := by
  induction fuel generalizing scope e with
  | zero => rfl
  | succ fuel ih =>
    have inside {inner : Scope} {part : Expr} (enters : s.Enters fuel scope e inner part) :
        t.evalAtFuel fuel inner part = s.evalAtFuel fuel inner part :=
      ih fun place name looks => same place name (.inside enters looks)
    cases e with
    | string | number | boolean | template => rfl
    | name word => rw [evalAtFuel, evalAtFuel, same scope word (.name fuel scope word)]
    | call function args =>
      rw [evalAtFuel, evalAtFuel, same scope function (.function fuel scope function args)]
      cases known : scope.lookup s function with
      | error e => rfl
      | ok f =>
        have arguments := Eval.all_congr fun e reached => inside (.argument known reached)
        rw [arguments]
        cases evaluated : Eval.all (s.evalAtFuel fuel scope) args with
        | error | outOfFuel => rfl
        | result vs =>
          cases f with
          | closure f =>
            simp only [Answer.ofExcept, Answer.result_bind, Eval.apply, live]
            cases counted : Eval.checkCount f.name f.params.length vs with
            | error e => rfl
            | ok _ =>
              cases alive : s.isLive f.home with
              | false => rfl
              | true => exact inside (.body known evaluated counted alive)
          | _ => rfl
    | ifElse q yes no =>
      rw [evalAtFuel, evalAtFuel, Eval.question_congr (inside (.question q yes no))]
      cases asked : Eval.question (s.evalAtFuel fuel scope) (.ifElse q yes no) q with
      | result b =>
        have branch := inside (.branch yes no (Eval.question_eq_result_iff.1 asked))
        cases b <;> exact branch
      | error | outOfFuel => rfl
    | cond cs => exact Eval.clauses_congr fun e reached => inside (.clause reached)
    | logical connective es => exact Eval.operands_congr fun e reached => inside (.operand reached)

/-! ## As slots settle -/

end Store

/-- The name has no value yet: it is none of the arguments, and reserved in the store. -/
def Scope.Awaits (scope : Scope) (s : Store) (name : String) : Prop :=
  scope.locals.get? name = none ∧ s.lookup scope.frame name = some .reserved

/-- Looking up a name that has no value yet is an error. -/
theorem Scope.Awaits.lookup {scope : Scope} {s : Store} {name : String}
    (awaits : scope.Awaits s name) :
    scope.lookup s name = .error (.about name .definedLater) := by
  rw [Scope.lookup, awaits.1, awaits.2]

namespace Store

variable {s t : Store} {fuel : Nat} {scope : Scope} {e : Expr}

/-- As slots settle, a name that is not reserved stands for the same. -/
theorem Settles.lookup_eq (h : s.Settles t) {name : String} (known : ¬ scope.Awaits s name) :
    scope.lookup t name = scope.lookup s name := by
  unfold Scope.lookup
  unfold Scope.Awaits at known
  cases local? : scope.locals.get? name with
  | some v => rfl
  | none =>
    have here := h.lookup scope.frame name
    generalize s.lookup scope.frame name = a at here known
    generalize t.lookup scope.frame name = b at here
    cases here with
    | stays => rfl
    | filled result => exact absurd ⟨local?, rfl⟩ known

/-- **As slots settle, an evaluation comes to the same**, whether that is a value, an error or no
end, unless it has looked up a name that was reserved, and failed by that. -/
theorem Settles.evalAtFuel_eq_or (h : s.Settles t) (fuel : Nat) (scope : Scope) (e : Expr) :
    t.evalAtFuel fuel scope e = s.evalAtFuel fuel scope e ∨
      ∃ place name, s.LooksUp fuel scope e place name ∧ place.Awaits s name ∧
        s.evalAtFuel fuel scope e = .error (.about name .definedLater) := by
  by_cases awaits : ∃ place name, s.LooksUp fuel scope e place name ∧ place.Awaits s name
  · obtain ⟨place, name, looks, awaits⟩ := awaits
    exact .inr ⟨place, name, looks, awaits, looks.evalAtFuel_error awaits.lookup⟩
  · refine .inl (evalAtFuel_congr (isLive_congr h.places) fun place name looks => ?_)
    exact h.lookup_eq fun waits => awaits ⟨place, name, looks, waits⟩

end Store

end Tyro
