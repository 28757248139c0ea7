import Tyro.Proofs.Guarded.Builtin

/-!
# Evaluation that indexes

`Guarded.evalAtFuel` is the evaluator with the steps written out that can break it off. An accessor
looks its field up in its type, for its name, and then in the structure that it is given; functions
take their arguments by their places; and an error is reported in words as soon as it comes up. All
else is as in `Store.evalAtFuel`.

In a sound frame nothing breaks off (`Guarded.evalAtFuel_eq`): the number of arguments has always
been checked before one is taken, and all values that come up are sound, so that each accessor finds
its field.
-/

namespace Tyro.Guarded

/-! ## Parts -/

/-- The values of several expressions. -/
def all (eval : Expr → Attempt Value) : List Expr → Attempt (List Value)
  | [] => .result []
  | e :: es => do return (← eval e) :: (← all eval es)

/-- The truth value of a question that belongs to a form. -/
def question (eval : Expr → Attempt Value) (form q : Expr) : Attempt Bool := do
  let v ← eval q
  match v.boolean? with
  | some b => return b
  | none => .raise ⟨form, .notBoolean v⟩

/-- The answer of the first clause whose question is true. -/
def clauses (eval : Expr → Attempt Value) (form : Expr) : Clauses → Attempt Value
  | .none => .raise ⟨form, .noAnswer⟩
  | .otherwise answer => eval answer
  | .clause q answer rest => do
    if ← question eval form q then eval answer else clauses eval form rest

/-- The value of a logical form. -/
def operands (eval : Expr → Attempt Value) (form : Expr) (connective : Connective) :
    List Expr → Attempt Value
  | [] => .result (.boolean !connective.settledBy)
  | e :: es => do
    let b ← question eval form e
    if b = connective.settledBy then return .boolean b else operands eval form connective es

/-! ## Applying functions -/

/-- Whether a function gets the one number of arguments that it takes. -/
def checkCount (name : String) (count : Nat) (args : List Value) : Attempt Unit :=
  if (Arity.exactly count).accepts args.length then .result ()
  else .raise (.about name (.arity (.exactly count) args.length))

/-- The value of a field. The type is asked for the name of the field, and the structure for its
value. -/
def access (type : StructType) (index : Nat) (args : List Value) : Attempt Value := do
  let name := accessorName type.name (← .ofStep type.fields[index]?)
  checkCount name 1 args
  let given ← .ofStep args[0]?
  match given with
  | .struct type' fields =>
    if type' = type then .ofStep fields[index]?
    else .raise (.about name (.wrongStruct type.name given))
  | _ => .raise (.about name (.wrongStruct type.name given))

/-- Applies a function to arguments. -/
def apply (s : Store) (eval : Scope → Expr → Attempt Value) (function : Value) (args : List Value)
    (call : Expr) : Attempt Value :=
  match function with
  | .builtin f => applyBuiltin f args
  | .closure f => do
    checkCount f.name f.params.length args
    if s.isLive f.home then eval ⟨.ofList (f.params.zip args), f.home⟩ f.body
    else .raise (.about f.name .homeless)
  | .constructor type => do
    checkCount (constructorName type.name) type.fields.length args
    return .struct type args
  | .accessor type index => access type index args
  | .predicate type => do
    checkCount (predicateName type.name) 1 args
    return .boolean (Eval.isStruct type (← .ofStep args[0]?))
  | _ => .raise ⟨call, .notFunction⟩

/-! ## The evaluator -/

/-- Evaluates an expression in a scope, no deeper than the fuel allows. -/
def evalAtFuel (s : Store) : Nat → Scope → Expr → Attempt Value
  | 0, _, _ => .outOfFuel
  | fuel + 1, scope, expr =>
    match expr with
    | .string content => .result (.string content)
    | .number value => .result (.number value)
    | .boolean value => .result (.boolean value)
    | .name word => .ofAnswer (.ofExcept (scope.lookup s word))
    | .template _ => .raise ⟨expr, .template⟩
    | .call function args => do
      let f ← .ofAnswer (.ofExcept (scope.lookup s function))
      let vs ← all (fun e => evalAtFuel s fuel scope e) args
      apply s (fun inner body => evalAtFuel s fuel inner body) f vs expr
    | .ifElse q yes no => do
      if ← question (fun e => evalAtFuel s fuel scope e) expr q then
        evalAtFuel s fuel scope yes
      else evalAtFuel s fuel scope no
    | .cond cs => clauses (fun e => evalAtFuel s fuel scope e) expr cs
    | .logical connective es => operands (fun e => evalAtFuel s fuel scope e) expr connective es

/-! ## Nothing breaks off -/

section Parts

variable {eval : Expr → Answer Value} {eval' : Expr → Attempt Value} {frame : FrameId}

/-- The expression comes to the same whether its steps are guarded or not, and if it has a value,
this is at home in the frame and sound. -/
structure Agrees (eval : Expr → Answer Value) (eval' : Expr → Attempt Value) (frame : FrameId)
    (e : Expr) : Prop where
  same : eval' e = .ofAnswer (eval e)
  follows : Answer.Follows (Value.SameSound frame) (fun e _ => e.Sound) (eval e) (eval e)

/-- The value of an expression is sound. -/
theorem Agrees.sound {e : Expr} (h : Agrees eval eval' frame e) {v : Value}
    (value : eval e = .result v) : v.Sound := by
  have follows := h.follows
  rw [value] at follows
  obtain ⟨w, -, -, -, sound⟩ := follows
  exact sound

/-- Several expressions come to the same. -/
theorem all_eq {es : List Expr} (parts : ∀ e ∈ es, Agrees eval eval' frame e) :
    all eval' es = .ofAnswer (Eval.all eval es) := by
  induction es with
  | nil => rfl
  | cons e es ih =>
    obtain ⟨first, others⟩ := List.forall_mem_cons.1 parts
    refine Attempt.ofAnswer_bind first.same fun v _ => ?_
    exact Attempt.ofAnswer_bind (ih others) fun vs _ => rfl

/-- The values of several expressions are sound. -/
theorem related_of_all {es : List Expr} (parts : ∀ e ∈ es, Agrees eval eval' frame e)
    {vs : List Value} (values : Eval.all eval es = .result vs) :
    List.Forall₂ (Value.SameSound frame) vs vs := by
  have follows := Eval.all_follows (Store.tolerant_sound frame)
    (List.forall₂_same.2 fun e mem => (parts e mem).follows)
  rw [values] at follows
  obtain ⟨ws, same, related⟩ := follows
  cases same
  exact related

/-- A question comes to the same: a value that is refused is sound. -/
theorem question_eq (form : Expr) {q : Expr} (part : Agrees eval eval' frame q) :
    question eval' form q = .ofAnswer (Eval.question eval form q) := by
  refine Attempt.ofAnswer_bind part.same fun v value => ?_
  cases v.boolean? with
  | some b => rfl
  | none => exact Attempt.raise_eq (List.forall_mem_singleton.2 (part.sound value))

/-- Clauses come to the same. -/
theorem clauses_eq (form : Expr) {cs : Clauses}
    (parts : ∀ e ∈ cs.exprs, Agrees eval eval' frame e) :
    clauses eval' form cs = .ofAnswer (Eval.clauses eval form cs) := by
  match cs with
  | .none => exact Attempt.raise_eq (List.forall_mem_nil _)
  | .otherwise answer => exact (parts answer List.mem_cons_self).same
  | .clause q answer rest =>
    obtain ⟨asked, parts⟩ := List.forall_mem_cons.1 parts
    obtain ⟨answered, parts⟩ := List.forall_mem_cons.1 parts
    refine Attempt.ofAnswer_bind (question_eq form asked) fun b _ => ?_
    cases b with
    | true => exact answered.same
    | false => exact clauses_eq form parts

/-- Logical forms come to the same. -/
theorem operands_eq (form : Expr) (connective : Connective) {es : List Expr}
    (parts : ∀ e ∈ es, Agrees eval eval' frame e) :
    operands eval' form connective es = .ofAnswer (Eval.operands eval form connective es) := by
  induction es with
  | nil => rfl
  | cons e es ih =>
    obtain ⟨first, others⟩ := List.forall_mem_cons.1 parts
    refine Attempt.ofAnswer_bind (question_eq form first) fun b _ => ?_
    by_cases settled : b = connective.settledBy
    · rw [if_pos settled, if_pos settled]
      rfl
    · rw [if_neg settled, if_neg settled]
      exact ih others

end Parts

/-- The number of arguments is checked to the same end. -/
theorem checkCount_eq (name : String) (count : Nat) (args : List Value) :
    checkCount name count args = .ofAnswer (.ofExcept (Eval.checkCount name count args)) := by
  unfold checkCount Eval.checkCount
  split
  · rfl
  · exact Attempt.raise_eq (List.forall_mem_nil _)

/-- Where one argument is wanted and the check is passed, there is one. -/
theorem exists_of_checkCount {name : String} {args : List Value} {done : Unit}
    (checked : Answer.ofExcept (Eval.checkCount name 1 args) = .result done) : ∃ v, args = [v] := by
  unfold Eval.checkCount at checked
  split at checked
  · next accepted => exact List.length_eq_one_iff.1 (Arity.accepts_exactly.1 accepted)
  · cases checked

/-- **A sound accessor does not break off**: its type has the field, and so has every structure of
the type. -/
theorem access_eq {type : StructType} {index : Nat} (accessor : (Value.accessor type index).Sound)
    {args : List Value} (sound : ∀ v ∈ args, v.Sound) :
    access type index args = .ofAnswer (.ofExcept (Eval.access type index args)) := by
  unfold access Eval.access
  rw [Value.getElem?_of_sound accessor, Attempt.ofStep, Attempt.result_bind]
  dsimp only
  generalize accessorName type.name (type.field index) = name
  rw [checkCount_eq]
  cases checked : Eval.checkCount name 1 args with
  | error e => rfl
  | ok =>
    obtain ⟨v, rfl⟩ := exists_of_checkCount (congrArg Answer.ofExcept checked)
    have given := sound v List.mem_cons_self
    have refused : (Attempt.raise (.about name (.wrongStruct type.name v)) : Attempt Value) =
        .error (.about name (.wrongStruct type.name v)) :=
      Attempt.raise_eq (List.forall_mem_singleton.2 given)
    cases given with
    | @struct type' fields full all =>
      change (if type' = type then Attempt.ofStep fields[index]? else Attempt.raise _) =
        .ofAnswer (.ofExcept (if type' = type then _ else _))
      by_cases same : type' = type
      · subst same
        cases accessor with
        | accessor inside =>
          rw [if_pos rfl, if_pos rfl, List.getElem?_eq_getElem (full ▸ inside)]
          rfl
      · rw [if_neg same, if_neg same]
        exact refused
    | _ => exact refused

/-- Applying a sound function to sound arguments comes to the same, if the bodies of functions
do. -/
theorem apply_eq {s : Store} {frame : FrameId} {run : Scope → Expr → Answer Value}
    {run' : Scope → Expr → Attempt Value}
    (body : ∀ locals e, Store.SoundArgs frame locals →
      run' ⟨locals, frame⟩ e = .ofAnswer (run ⟨locals, frame⟩ e))
    {f : Value} (here : f.AtHome frame) (sound : f.Sound) {args : List Value}
    (related : List.Forall₂ (Value.SameSound frame) args args) (call : Expr) :
    apply s run' f args call = .ofAnswer (Eval.apply s run f args call) := by
  have soundArgs : ∀ v ∈ args, v.Sound := fun v mem => ((forall₂_self_iff.1 related).2 v mem).2
  cases f with
  | builtin f =>
    refine applyBuiltin_eq f fun e failed => ?_
    have corresponds := Builtin.apply_corresponds (Value.correspondence_sound frame) f related
    rw [failed] at corresponds
    exact (Store.tolerant_sound frame).corresponding e e corresponds
  | closure f =>
    refine Attempt.ofAnswer_bind (checkCount_eq f.name f.params.length args) fun _ _ => ?_
    split
    · cases here with
      | closure here =>
        rw [here]
        exact body _ f.body (Bindings.related_ofList (entriesRelated_zip f.params related))
    · exact Attempt.raise_eq (List.forall_mem_nil _)
  | constructor type =>
    exact Attempt.ofAnswer_bind (checkCount_eq _ type.fields.length args) fun _ _ => rfl
  | accessor type index => exact access_eq sound soundArgs
  | predicate type =>
    refine Attempt.ofAnswer_bind (checkCount_eq _ 1 args) fun _ checked => ?_
    obtain ⟨v, rfl⟩ := exists_of_checkCount checked
    rfl
  | _ => exact Attempt.raise_eq (e := ⟨call, .notFunction⟩) (List.forall_mem_nil _)

/-- **In a sound frame, evaluation does not break off**: at any depth, and wherever the arguments
of the call are sound. -/
theorem evalAtFuel_eq {s : Store} {frame : FrameId} (sound : s.Sound frame) (fuel : Nat)
    {locals : Bindings Value} (args : Store.SoundArgs frame locals) (e : Expr) :
    evalAtFuel s fuel ⟨locals, frame⟩ e = .ofAnswer (s.evalAtFuel fuel ⟨locals, frame⟩ e) := by
  induction fuel generalizing locals e with
  | zero => rfl
  | succ fuel ih =>
    have part : ∀ part, Agrees (s.evalAtFuel fuel ⟨locals, frame⟩)
        (evalAtFuel s fuel ⟨locals, frame⟩) frame part :=
      fun part => ⟨ih args part, sound.follows args fuel part⟩
    cases e with
    | string | number | boolean | name => rfl
    | template dots =>
      exact Attempt.raise_eq (e := ⟨.template dots, .template⟩) (List.forall_mem_nil _)
    | call function es =>
      refine Attempt.ofAnswer_bind rfl fun f found => ?_
      have follows : Answer.Follows (Value.SameSound frame) (fun e _ => e.Sound)
          (.ofExcept (Scope.lookup ⟨locals, frame⟩ s function))
          (.ofExcept (Scope.lookup ⟨locals, frame⟩ s function)) :=
        sound.namesFollow.inside args trivial
      rw [found] at follows
      obtain ⟨-, -, -, here, soundFunction⟩ := follows
      refine Attempt.ofAnswer_bind (all_eq fun e _ => part e) fun vs values => ?_
      exact apply_eq (fun locals e args => ih args e) here soundFunction
        (related_of_all (fun e _ => part e) values) _
    | ifElse q yes no =>
      refine Attempt.ofAnswer_bind (question_eq _ (part q)) fun b _ => ?_
      cases b with
      | true => exact ih args yes
      | false => exact ih args no
    | cond cs => exact clauses_eq _ fun e _ => part e
    | logical connective es => exact operands_eq _ connective fun e _ => part e

end Tyro.Guarded
