import Mathlib.Order.Filter.AtTopBot.Basic
import Tyro.Eval.Fuel

/-!
# Ladders of questions

A `cond`, an `and` and an `or` ask questions one after the other until one of them settles what the
form comes to. A `Ladder` is such a sequence of questions, and `Ladder.nested` writes it with `if`
alone: each question is that of an `if` which stands inside the one before it.

* `Store.answer` is what an expression comes to with any fuel that is enough; where none is, it is
  `outOfFuel`. It has the equations of the evaluator without the fuel (`answer_ifElse`,
  `answer_cond`, `answer_logical`).
* `Ladder.climb` asks the questions of a ladder in order. What it reports a value against that is no
  truth value is left open: for a form this is the whole form, for nested `if`s the `if` of the
  question.
* `Ladder.Refuses` says at which question a ladder ends with such a value. `climb_of_refuses` and
  `climb_congr` compare two climbs in this case and in all others.

`forms_are_nested_ifs` puts these together.
-/

namespace Tyro

open Filter

/-! ## Answers without fuel -/

namespace Eval

variable {eval : Nat → Expr → Answer Value} {limit : Expr → Answer Value}
  (settles : ∀ e, ∀ᶠ fuel in atTop, eval fuel e = limit e)
include settles

/-- A question settles if all expressions do. -/
theorem question_settles (form q : Expr) :
    ∀ᶠ fuel in atTop, question (eval fuel) form q = question limit form q := by
  filter_upwards [settles q] with fuel asked
  rw [question, question, asked]

/-- Clauses settle if all expressions do. -/
theorem clauses_settle (form : Expr) : (cs : Clauses) →
    ∀ᶠ fuel in atTop, clauses (eval fuel) form cs = clauses limit form cs
  | .none => .of_forall fun _ => rfl
  | .otherwise answer => settles answer
  | .clause q answer rest => by
    filter_upwards [question_settles settles form q, settles answer, clauses_settle form rest]
      with fuel asked answered later
    rw [clauses, clauses, asked, answered, later]

/-- The operands of a logical form settle if all expressions do. -/
theorem operands_settle (form : Expr) (connective : Connective) (es : List Expr) :
    ∀ᶠ fuel in atTop,
      operands (eval fuel) form connective es = operands limit form connective es := by
  induction es with
  | nil => exact .of_forall fun _ => rfl
  | cons e es ih =>
    filter_upwards [question_settles settles form e, ih] with fuel asked later
    rw [operands, operands, asked, later]

end Eval

namespace Store

variable (s : Store) (scope : Scope)

open Classical in
/-- What an expression comes to in a scope, with any fuel that is enough. Where no fuel is enough,
the evaluation never gets to an end, and the answer is that it is out of fuel. -/
noncomputable def answer (e : Expr) : Answer Value :=
  if ends : ∃ fuel, s.evalAtFuel fuel scope e ≠ .outOfFuel then s.evalAtFuel ends.choose scope e
  else .outOfFuel

/-- From some fuel on an expression has its answer. -/
theorem eventually_evalAtFuel (e : Expr) :
    ∀ᶠ fuel in atTop, s.evalAtFuel fuel scope e = s.answer scope e := by
  by_cases ends : ∃ fuel, s.evalAtFuel fuel scope e ≠ .outOfFuel
  · rw [answer, dif_pos ends]
    filter_upwards [eventually_ge_atTop ends.choose] with fuel enough
    exact evalAtFuel_mono s enough scope e ends.choose_spec
  · rw [answer, dif_neg ends]
    rw [not_exists] at ends
    exact .of_forall fun fuel => Classical.not_not.1 (ends fuel)

/-- An answer that is reached with some fuel is the answer. -/
theorem answer_of_evalAtFuel (fuel : Nat) (e : Expr) {a : Answer Value}
    (reached : s.evalAtFuel fuel scope e = a) (ends : a ≠ .outOfFuel) : s.answer scope e = a := by
  obtain ⟨more, enough, settled⟩ :=
    ((eventually_ge_atTop fuel).and (s.eventually_evalAtFuel scope e)).exists
  subst reached
  rw [← settled, evalAtFuel_mono s enough scope e ends]

/-- What an expression comes to with a step more of fuel than its parts is its answer. -/
theorem answer_eq_of_succ {e : Expr} {a : Answer Value}
    (settled : ∀ᶠ fuel in atTop, s.evalAtFuel (fuel + 1) scope e = a) : s.answer scope e = a := by
  have shifted := (tendsto_add_atTop_nat 1).eventually (s.eventually_evalAtFuel scope e)
  obtain ⟨fuel, one, other⟩ := (shifted.and settled).exists
  exact one.symm.trans other

/-- A truth value answers with itself. -/
@[simp] theorem answer_boolean (b : Bool) : s.answer scope (.boolean b) = .result (.boolean b) :=
  s.answer_eq_of_succ scope (.of_forall fun _ => rfl)

/-- An `if` answers as its question decides. -/
theorem answer_ifElse (q yes no : Expr) :
    s.answer scope (.ifElse q yes no) = (do
      if ← Eval.question (s.answer scope) (.ifElse q yes no) q then s.answer scope yes
      else s.answer scope no) := by
  have settles := s.eventually_evalAtFuel scope
  refine s.answer_eq_of_succ scope ?_
  filter_upwards [Eval.question_settles settles _ q, settles yes, settles no]
    with fuel asked whenTrue whenFalse
  rw [evalAtFuel, asked, whenTrue, whenFalse]

/-- A `cond` answers as its clauses do. -/
theorem answer_cond (cs : Clauses) :
    s.answer scope (.cond cs) = Eval.clauses (s.answer scope) (.cond cs) cs :=
  s.answer_eq_of_succ scope (Eval.clauses_settle (s.eventually_evalAtFuel scope) _ cs)

/-- An `and` and an `or` answer as their operands do. -/
theorem answer_logical (connective : Connective) (es : List Expr) :
    s.answer scope (.logical connective es) =
      Eval.operands (s.answer scope) (.logical connective es) connective es :=
  s.answer_eq_of_succ scope (Eval.operands_settle (s.eventually_evalAtFuel scope) _ connective es)

end Store

/-- Exactly the truth values are truth values. -/
theorem Value.boolean?_eq_some_iff {v : Value} {b : Bool} :
    v.boolean? = some b ↔ v = .boolean b := by
  cases v <;> simp [boolean?]

/-! ## Ladders -/

/-- The questions of clauses, each with its answer. -/
def Clauses.steps : Clauses → List (Expr × Expr)
  | .none => []
  | .otherwise _ => []
  | .clause q answer rest => (q, answer) :: rest.steps

/-- The answer of the `else` among clauses, if there is one. -/
def Clauses.else? : Clauses → Option Expr
  | .none => Option.none
  | .otherwise answer => some answer
  | .clause _ _ rest => rest.else?

/-- Questions that are asked one after the other. -/
structure Ladder where
  /-- The truth value on which the next question is asked. -/
  onward : Bool
  /-- The questions, each with the expression that answers on the other truth value. -/
  steps : List (Expr × Expr)
  /-- The expression that answers after the last question. -/
  last : Expr

namespace Ladder

/-- The ladder with other questions. -/
def above (l : Ladder) (steps : List (Expr × Expr)) : Ladder := { l with steps := steps }

/-- Questions in nested `if`s, with the last answer inside all of them. -/
def nest (onward : Bool) (last : Expr) : List (Expr × Expr) → Expr
  | [] => last
  | (q, exit) :: rest =>
    if onward then .ifElse q (nest onward last rest) exit
    else .ifElse q exit (nest onward last rest)

/-- The ladder in nested `if`s. -/
def nested (l : Ladder) : Expr := nest l.onward l.last l.steps

/-- The ladder of an `and` goes on after each truth and ends in one. -/
def ofAnd (es : List Expr) : Ladder := ⟨true, es.map (·, .boolean false), .boolean true⟩

/-- The ladder of an `or` goes on after each falsehood and ends in one. -/
def ofOr (es : List Expr) : Ladder := ⟨false, es.map (·, .boolean true), .boolean false⟩

example (a b : Expr) : (ofAnd [a, b]).nested =
    .ifElse a (.ifElse b (.boolean true) (.boolean false)) (.boolean false) := rfl

example (a b : Expr) : (ofOr [a, b]).nested =
    .ifElse a (.boolean true) (.ifElse b (.boolean true) (.boolean false)) := rfl

variable {eval : Expr → Answer Value} {l : Ladder} {onward : Bool}
  {blame blame' : List (Expr × Expr) → Expr} {last last' : Answer Value}
  {steps rest : List (Expr × Expr)} {v : Value}

/-- Asks questions in order. A value that is no truth value is reported against what is to blame for
the questions from there on. -/
def climb (eval : Expr → Answer Value) (onward : Bool) (blame : List (Expr × Expr) → Expr)
    (last : Answer Value) : List (Expr × Expr) → Answer Value
  | [] => last
  | (q, exit) :: rest => do
    if (← Eval.question eval (blame ((q, exit) :: rest)) q) = onward then
      climb eval onward blame last rest
    else eval exit

/-- Questions are asked up to one with the value, which is no truth value. It is the first of the
questions that are left. -/
inductive Refuses (eval : Expr → Answer Value) (onward : Bool) :
    List (Expr × Expr) → List (Expr × Expr) → Value → Prop
  | here {q : Expr} {v : Value} (exit : Expr) (rest : List (Expr × Expr))
    (asked : eval q = .result v) (noTruth : v.boolean? = none) :
    Refuses eval onward ((q, exit) :: rest) ((q, exit) :: rest) v
  | later {q exit : Expr} {steps rest : List (Expr × Expr)} {v : Value}
    (asked : eval q = .result (.boolean onward)) (further : Refuses eval onward steps rest v) :
    Refuses eval onward ((q, exit) :: steps) rest v

/-- A value that is refused is reported against what is to blame for the questions that are left. -/
theorem climb_of_refuses (refused : Refuses eval onward steps rest v) :
    climb eval onward blame last steps = .error ⟨blame rest, .notBoolean v⟩ := by
  induction refused with
  | here exit rest asked noTruth =>
    rw [climb, Eval.question, asked, Answer.result_bind, noTruth]
    rfl
  | later asked _ ih =>
    rw [climb, Eval.question, asked, Answer.result_bind]
    exact (if_pos rfl).trans ih

/-- Where no value is refused, it does not matter what is to blame, and the last answer matters only
if all questions go on to it. -/
theorem climb_congr (fine : ∀ rest v, ¬ Refuses eval onward steps rest v)
    (ends : (∀ step ∈ steps, eval step.1 = .result (.boolean onward)) → last = last') :
    climb eval onward blame last steps = climb eval onward blame' last' steps := by
  induction steps with
  | nil => exact ends (List.forall_mem_nil _)
  | cons step rest ih =>
    obtain ⟨q, exit⟩ := step
    rw [climb, climb, Eval.question, Eval.question]
    cases asked : eval q with
    | error e => rfl
    | outOfFuel => rfl
    | result v =>
      rw [Answer.result_bind, Answer.result_bind]
      cases truth : v.boolean? with
      | none => exact absurd (.here exit rest asked truth) (fine _ v)
      | some b =>
        cases Value.boolean?_eq_some_iff.1 truth
        by_cases goesOn : b = onward
        · subst goesOn
          have fine' : ∀ left w, ¬ Refuses eval b rest left w :=
            fun left w refused => fine left w (.later asked refused)
          have ends' : (∀ step ∈ rest, eval step.1 = .result (.boolean b)) → last = last' :=
            fun all => ends (List.forall_mem_cons.2 ⟨asked, all⟩)
          exact (if_pos rfl).trans ((ih fine' ends').trans (if_pos rfl).symm)
        · exact (if_neg goesOn).trans (if_neg goesOn).symm

/-- Where all questions go on, the last answer is given. -/
theorem climb_of_all (all : ∀ step ∈ steps, eval step.1 = .result (.boolean onward)) :
    climb eval onward blame last steps = last := by
  induction steps with
  | nil => rfl
  | cons step rest ih =>
    obtain ⟨asked, others⟩ := List.forall_mem_cons.1 all
    rw [climb, Eval.question, asked]
    exact (if_pos rfl).trans (ih others)

/-! ## Forms as ladders -/

variable {s : Store} {scope : Scope}

/-- Nested `if`s climb their ladder, each `if` being to blame for its own question. -/
theorem answer_nest (onward : Bool) (last : Expr) (steps : List (Expr × Expr)) :
    s.answer scope (nest onward last steps) =
      climb (s.answer scope) onward (nest onward last) (s.answer scope last) steps := by
  induction steps with
  | nil => rfl
  | cons step rest ih =>
    obtain ⟨q, exit⟩ := step
    rw [climb, ← ih]
    cases onward with
    | true => exact s.answer_ifElse scope q _ exit
    | false =>
      refine (s.answer_ifElse scope q exit _).trans ?_
      refine congrArg (Eval.question _ _ q >>= ·) (funext fun b => ?_)
      cases b <;> rfl

/-- A `cond` climbs the ladder of its clauses. -/
theorem climb_clauses (form : Expr) : (cs : Clauses) →
    Eval.clauses eval form cs = climb eval false (fun _ => form)
      (cs.else?.elim (.error ⟨form, .noAnswer⟩) eval) cs.steps
  | .none => rfl
  | .otherwise _ => rfl
  | .clause q answer rest => by
    rw [Eval.clauses, Clauses.steps, climb, Clauses.else?, ← climb_clauses form rest]
    refine congrArg (Eval.question eval form q >>= ·) (funext fun b => ?_)
    cases b <;> rfl

/-- An `and` and an `or` climb the ladder of their operands. -/
theorem climb_operands (truths : ∀ b, eval (.boolean b) = .result (.boolean b)) (form : Expr)
    (connective : Connective) (es : List Expr) :
    Eval.operands eval form connective es = climb eval (!connective.settledBy) (fun _ => form)
      (.result (.boolean !connective.settledBy))
      (es.map (·, .boolean connective.settledBy)) := by
  induction es with
  | nil => rfl
  | cons e es ih =>
    rw [Eval.operands, List.map_cons, climb, ← ih, truths]
    refine congrArg (Eval.question eval form e >>= ·) (funext fun b => ?_)
    cases connective <;> cases b <;> rfl

/-- The form has the same outcome as the nested `if`s of the ladder: the same value, the same error,
or none as neither gets to an end. The one exception is a value of a question that is no truth
value. Both report it, the form against itself and the nested `if`s against the `if` of the
question. -/
structure SameOutcome (s : Store) (scope : Scope) (form : Expr) (l : Ladder) : Prop where
  own : ∀ rest v, Refuses (s.answer scope) l.onward l.steps rest v →
    s.answer scope form = .error ⟨form, .notBoolean v⟩ ∧
      s.answer scope l.nested = .error ⟨(l.above rest).nested, .notBoolean v⟩
  other : (∀ rest v, ¬ Refuses (s.answer scope) l.onward l.steps rest v) →
    s.answer scope form = s.answer scope l.nested

/-- A form that climbs a ladder has the same outcome as the nested `if`s, if it comes to the same
after the last question. -/
theorem sameOutcome_of_climb {form : Expr} {l : Ladder}
    (climbs : s.answer scope form =
      climb (s.answer scope) l.onward (fun _ => form) last l.steps)
    (ends : (∀ step ∈ l.steps, s.answer scope step.1 = .result (.boolean l.onward)) →
      last = s.answer scope l.last) : SameOutcome s scope form l where
  own rest v refused := by
    rw [climbs, nested, answer_nest]
    exact ⟨climb_of_refuses refused, climb_of_refuses refused⟩
  other fine := by
    rw [climbs, nested, answer_nest]
    exact climb_congr fine ends

/-- **Forms are nested `if`s**, in every store and scope. What an expression comes to is what it is
evaluated to from some fuel on. A `cond` with an `else` comes to the same as the nested `if`s of its
clauses with the answer of the `else` inside. Without an `else` it does so whatever is put in the
place of that answer, unless all questions are false, which is an error of its own. An `and` and an
`or` come to the same as the nested `if`s of their operands. -/
theorem forms_are_nested_ifs (s : Store) (scope : Scope) :
    (∀ e, ∃ fuel, ∀ more ≥ fuel, s.evalAtFuel more scope e = s.answer scope e) ∧
    (∀ cs answer, cs.else? = some answer →
      SameOutcome s scope (.cond cs) ⟨false, cs.steps, answer⟩) ∧
    (∀ cs, cs.else? = none →
      ((∀ step ∈ cs.steps, s.answer scope step.1 = .result (.boolean false)) →
        s.answer scope (.cond cs) = .error ⟨.cond cs, .noAnswer⟩) ∧
      (¬ (∀ step ∈ cs.steps, s.answer scope step.1 = .result (.boolean false)) →
        ∀ answer, SameOutcome s scope (.cond cs) ⟨false, cs.steps, answer⟩)) ∧
    (∀ es, SameOutcome s scope (.logical .and es) (ofAnd es)) ∧
    (∀ es, SameOutcome s scope (.logical .or es) (ofOr es)) ∧
    EvalFault.noAnswer.message = "all question results were false" ∧
    ∀ v, (EvalFault.notBoolean v).message =
      "question result is not true or false: " ++ v.render := by
  have cond (cs : Clauses) := (s.answer_cond scope cs).trans (climb_clauses (.cond cs) cs)
  have logical (connective : Connective) (es : List Expr) :=
    (s.answer_logical scope connective es).trans
      (climb_operands (s.answer_boolean scope) (.logical connective es) connective es)
  refine ⟨?_, ?_, ?_, ?_, ?_, rfl, fun _ => rfl⟩
  · exact fun e => eventually_atTop.1 (s.eventually_evalAtFuel scope e)
  · intro cs answer found
    refine sameOutcome_of_climb (cond cs) fun _ => ?_
    rw [found]
    rfl
  · intro cs noElse
    refine ⟨fun all => ?_, fun notAll answer => ?_⟩
    · rw [cond cs, climb_of_all all, noElse]
      rfl
    · exact sameOutcome_of_climb (cond cs) fun all => absurd all notAll
  · exact fun es => sameOutcome_of_climb (logical .and es) fun _ => (s.answer_boolean scope _).symm
  · exact fun es => sameOutcome_of_climb (logical .or es) fun _ => (s.answer_boolean scope _).symm

/-- The clauses of a `cond` that meets a string where it asks for a truth value. -/
def clausesWithString : Clauses :=
  .clause (.boolean false) (.string "a")
    (.clause (.string "maybe") (.string "b") (.otherwise (.string "c")))

/-- A string that is asked for is refused against the `cond`, and against the inner `if`. Without an
`else`, a `cond` fails for a question that is false and answers for one that is true. -/
theorem cond_refuses_string :
    Store.empty.answer (.top 0) (.cond clausesWithString) =
      .error ⟨.cond clausesWithString, .notBoolean (.string "maybe")⟩ ∧
    Store.empty.answer (.top 0) (.ifElse (.boolean false) (.string "a")
        (.ifElse (.string "maybe") (.string "b") (.string "c"))) =
      .error ⟨.ifElse (.string "maybe") (.string "b") (.string "c"),
        .notBoolean (.string "maybe")⟩ ∧
    Store.empty.answer (.top 0) (.cond (.clause (.boolean false) (.string "a") .none)) =
      .error ⟨.cond (.clause (.boolean false) (.string "a") .none), .noAnswer⟩ ∧
    Store.empty.answer (.top 0) (.cond (.clause (.boolean true) (.string "a") .none)) =
      Store.empty.answer (.top 0) (.ifElse (.boolean true) (.string "a") (.string "b")) := by
  obtain ⟨-, withElse, withoutElse, -⟩ := forms_are_nested_ifs .empty (.top 0)
  have maybe := Store.empty.answer_of_evalAtFuel (.top 0) 1 (.string "maybe") rfl nofun
  have refused := (withElse clausesWithString _ rfl).own _ _
    (.later (Store.empty.answer_boolean _ _) (.here _ _ maybe rfl))
  refine ⟨refused.1, refused.2, ?_, ?_⟩
  · refine (withoutElse (.clause (.boolean false) (.string "a") .none) rfl).1 ?_
    exact List.forall_mem_singleton.2 (Store.empty.answer_boolean _ _)
  · have asked := Store.empty.answer_boolean (.top 0) true
    refine ((withoutElse (.clause (.boolean true) (.string "a") .none) rfl).2 ?_ _).other ?_
    · intro all
      have goesOn := List.forall_mem_singleton.1 all
      rw [asked] at goesOn
      cases goesOn
    · rintro rest v (⟨_, _, asked', noTruth⟩ | ⟨asked', -⟩)
      · rw [asked] at asked'
        cases asked'
        cases noTruth
      · rw [asked] at asked'
        cases asked'

end Ladder

end Tyro
