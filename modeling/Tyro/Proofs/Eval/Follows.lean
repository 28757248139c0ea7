import Tyro.Program.Run
import Tyro.Proofs.Builtin.Results
import Tyro.Proofs.Store.Home

/-!
# One evaluation following another

Two stores are compared in which one expression is evaluated. `Answer.Follows R P a b` says that the
second answer follows the first: where the first is a result, the second is a related one; where the
first is an error, `P` says what may come of it in the second. If the values correspond and the
answers for names follow each other, then so do those of all expressions
(`Store.evalAtFuel_follows`). For every part of an evaluation there is one lemma, and the parts are
chained by `Follows.bind`. `Store.eval?_value_follows` and `Store.eval?_error_follows` are what this
comes to at the top level.

For home frames it is enough that the values of the one are within the other (`Store.Within.eval?`).
With equality of values that are at home in a frame as the relation, this shows that evaluation
makes no values but those at home (`Store.IsHome.atHome_eval?`).
-/

namespace Tyro

/-- The error that the answer is, if it is one. -/
def Answer.error? {α : Type} : Answer α → Option EvalError
  | .error e => some e
  | _ => none

/-- The second answer is what can come of the first: a related result, or of an error what `P`
allows. Where the first answer has run out of fuel, nothing is said. -/
def Answer.Follows {α β : Type} (R : α → β → Prop) (P : EvalError → Option EvalError → Prop)
    (a : Answer α) (b : Answer β) : Prop :=
  match a with
  | .result x => ∃ y, b = .result y ∧ R x y
  | .error e => P e b.error?
  | .outOfFuel => True

/-- What may come of an error: a corresponding one, and anything if it need not be an error. -/
structure Tolerant (V : Value → Value → Prop) (P : EvalError → Option EvalError → Prop) :
    Prop where
  corresponding : ∀ e e', e.Corresponds V e' → P e (some e')
  any : ∀ e, P e none → ∀ other, P e other

/-- An error against the one expression may become a corresponding error against the other. -/
def Blames (V : Value → Value → Prop) (P : EvalError → Option EvalError → Prop)
    (form form' : Expr) : Prop :=
  ∀ ⦃fault fault' : EvalFault⦄, fault.Corresponds V fault' → P ⟨form, fault⟩ (some ⟨form', fault'⟩)

/-- An error may become a corresponding one against the same expression. -/
theorem Tolerant.blames {V : Value → Value → Prop} {P : EvalError → Option EvalError → Prop}
    (tolerant : Tolerant V P) (form : Expr) : Blames V P form form :=
  fun _ _ corresponds => tolerant.corresponding _ _ ⟨rfl, corresponds⟩

/-- Where errors do not matter, anything may come of them. -/
theorem tolerant_true (V : Value → Value → Prop) : Tolerant V fun _ _ => True :=
  ⟨fun _ _ _ => trivial, fun _ _ _ => trivial⟩

namespace Answer

/-- An answer ends with a value if it is a result. -/
theorem finished?_eq_ok_iff {α : Type} {a : Answer α} {x : α} :
    a.finished? = some (.ok x) ↔ a = .result x := by
  cases a <;> simp [finished?]

/-- An answer ends with an error if it is one. -/
theorem finished?_eq_error_iff {α : Type} {a : Answer α} {e : EvalError} :
    a.finished? = some (.error e) ↔ a = .error e := by
  cases a <;> simp [finished?]

/-- An answer is the error that it has. -/
theorem error?_eq_some_iff {α : Type} {a : Answer α} {e : EvalError} :
    a.error? = some e ↔ a = .error e := by
  cases a <;> simp [error?]

variable {α β α' β' : Type} {R : α → β → Prop} {R' : α' → β' → Prop} {V : Value → Value → Prop}
  {P : EvalError → Option EvalError → Prop}

/-- Chains follow each other if their parts do. -/
theorem Follows.bind (tolerant : Tolerant V P) {a : Answer α} {b : Answer β}
    {next : α → Answer α'} {next' : β → Answer β'} (first : Follows R P a b)
    (rest : ∀ x y, R x y → Follows R' P (next x) (next' y)) :
    Follows R' P (a >>= next) (b >>= next') := by
  cases a with
  | result x =>
    obtain ⟨y, rfl, related⟩ := first
    exact rest x y related
  | error e =>
    cases b with
    | result y => exact tolerant.any e first _
    | error e' => exact first
    | outOfFuel => exact tolerant.any e first _
  | outOfFuel => trivial

/-- Related results follow each other. -/
theorem follows_result {x : α} {y : β} (related : R x y) : Follows R P (.result x) (.result y) :=
  ⟨y, rfl, related⟩

/-- An answer follows itself if its error may stay. -/
theorem follows_self {a : Answer α} (stays : ∀ e, P e (some e)) : Follows Eq P a a := by
  cases a with
  | result x => exact follows_result rfl
  | error e => exact stays e
  | outOfFuel => trivial

/-- An answer follows one that it is equal to as soon as that one is an answer. -/
theorem follows_of_agree {a b : Answer α} (stays : ∀ e, P e (some e))
    (agree : a ≠ .outOfFuel → b = a) : Follows Eq P a b := by
  by_cases out : a = .outOfFuel
  · rw [out]
    trivial
  · rw [agree out]
    exact follows_self stays

/-- An error follows one that differs in the values that it reports. -/
theorem follows_error (tolerant : Tolerant V P) {context : Expr} {fault fault' : EvalFault}
    (corresponds : fault.Corresponds V fault') :
    Follows R P (.error ⟨context, fault⟩) (.error ⟨context, fault'⟩) :=
  tolerant.corresponding _ _ ⟨rfl, corresponds⟩

/-- What is computed without a store follows what is computed from related values. -/
theorem follows_ofExcept (tolerant : Tolerant V P) {x : Except EvalError α} {y : Except EvalError β}
    (outcome : Outcome (EvalError.Corresponds V) R x y) :
    Follows R P (.ofExcept x) (.ofExcept y) := by
  cases x with
  | ok a =>
    cases y with
    | ok b => exact follows_result outcome
    | error e => exact outcome.elim
  | error e =>
    cases y with
    | ok b => exact outcome.elim
    | error e' => exact tolerant.corresponding e e' outcome

end Answer

open Answer

namespace Eval

variable {frame frame' : FrameId} {V : Value → Value → Prop} {T : StructType → StructType → Prop}
  {E : Expr → Prop} {P : EvalError → Option EvalError → Prop} {eval eval' : Expr → Answer Value}

/-! ## Parts -/

section Parts

variable (tolerant : Tolerant V P)
include tolerant

/-- The values of several expressions follow each other. -/
theorem all_follows {es es' : List Expr}
    (part : List.Forall₂ (fun e e' => Follows V P (eval e) (eval' e')) es es') :
    Follows (List.Forall₂ V) P (all eval es) (all eval' es') := by
  induction part with
  | nil => exact follows_result .nil
  | cons first _ ih =>
    refine first.bind tolerant fun v w related => ?_
    exact ih.bind tolerant fun vs ws all => follows_result (.cons related all)

variable (truth : KeepsTruth V) {form form' : Expr} (blame : Blames V P form form')
include truth blame

/-- The truth values of a question follow each other. -/
theorem question_follows {q q' : Expr} (part : Follows V P (eval q) (eval' q')) :
    Follows Eq P (question eval form q) (question eval' form' q') := by
  refine part.bind tolerant fun v w related => ?_
  rw [truth.boolean? related]
  cases v.boolean? with
  | some b => exact follows_result rfl
  | none => exact blame (.notBoolean related)

/-- The answers of clauses follow each other. -/
theorem clauses_follows {cs cs' : Clauses}
    (part : cs.Related (fun e e' => Follows V P (eval e) (eval' e')) cs') :
    Follows V P (clauses eval form cs) (clauses eval' form' cs') := by
  induction part with
  | none => exact blame .noAnswer
  | otherwise answered => exact answered
  | clause asked answered _ ih =>
    refine (question_follows tolerant truth blame asked).bind tolerant fun b b' same => ?_
    cases same
    cases b with
    | true => exact answered
    | false => exact ih

/-- The values of logical forms follow each other. -/
theorem operands_follows (connective : Connective) {es es' : List Expr}
    (part : List.Forall₂ (fun e e' => Follows V P (eval e) (eval' e')) es es') :
    Follows V P (operands eval form connective es) (operands eval' form' connective es') := by
  induction part with
  | nil => exact follows_result (truth.boolean _)
  | cons first _ ih =>
    refine (question_follows tolerant truth blame first).bind tolerant fun b b' same => ?_
    cases same
    by_cases settled : b = connective.settledBy
    · rw [if_pos settled, if_pos settled]
      exact follows_result (truth.boolean _)
    · rw [if_neg settled, if_neg settled]
      exact ih

end Parts

/-! ## Applying functions -/

/-- A number of arguments is allowed or not. -/
theorem checkCount_corresponds (V : Value → Value → Prop) (name : String) (count : Nat)
    {args args' : List Value} (length : args.length = args'.length) :
    Outcome (EvalError.Corresponds V) (fun _ _ => args.length = count)
      (checkCount name count args) (checkCount name count args') := by
  unfold checkCount
  rw [length]
  split
  · next accepted => exact Arity.accepts_exactly.1 accepted
  · exact ⟨rfl, .arity _ _⟩

/-- The first of related arguments are related. -/
theorem headD_related (c : Correspondence frame frame' V T E) {args args' : List Value}
    (related : List.Forall₂ V args args') : V (args.headD default) (args'.headD default) := by
  cases related with
  | nil => exact c.boolean _
  | cons first _ => exact first

/-- At each place two related lists have related items, or none. -/
theorem getElem?_related {vs ws : List Value} (related : List.Forall₂ V vs ws) (index : Nat) :
    vs[index]? = none ∧ ws[index]? = none ∨
      ∃ v w, vs[index]? = some v ∧ ws[index]? = some w ∧ V v w := by
  by_cases bound : index < vs.length
  · have bound' : index < ws.length := related.length_eq ▸ bound
    exact .inr ⟨_, _, List.getElem?_eq_getElem bound, List.getElem?_eq_getElem bound',
      related.get bound bound'⟩
  · have bound' : ¬ index < ws.length := related.length_eq ▸ bound
    exact .inl ⟨List.getElem?_eq_none (Nat.le_of_not_lt bound),
      List.getElem?_eq_none (Nat.le_of_not_lt bound')⟩

/-- The field of a structure is found in related structures alike. -/
theorem access_corresponds (c : Correspondence frame frame' V T E) {t u : StructType}
    (types : T t u) (index : Nat) {args args' : List Value} (related : List.Forall₂ V args args') :
    Outcome (EvalError.Corresponds V) V (access t index args) (access u index args') := by
  have given := headD_related c related
  obtain ⟨name, fields⟩ := c.alike types
  unfold access
  unfold StructType.field
  rw [name, fields]
  refine (checkCount_corresponds V _ 1 related.length_eq).bind fun _ _ _ => ?_
  have refused : Outcome (EvalError.Corresponds V) V
      (Except.error (EvalError.about (accessorName t.name (t.fields.getD index ""))
        (.wrongStruct t.name (args.headD default))))
      (Except.error (EvalError.about (accessorName t.name (t.fields.getD index ""))
        (.wrongStruct t.name (args'.headD default)))) := ⟨rfl, .wrongStruct _ given⟩
  generalize args.headD default = v at given refused ⊢
  generalize args'.headD default = w at given refused ⊢
  cases c.shape given with
  | @struct t' u' vs ws types' inside =>
    dsimp only
    by_cases same : t' = t
    · rw [if_pos same, if_pos ((c.same types types').1 same)]
      rcases getElem?_related inside index with ⟨absent, absent'⟩ | ⟨x, y, found, found', field⟩
      · rw [absent, absent']
        exact refused
      · rw [found, found']
        exact field
    · rw [if_neg same, if_neg (mt (c.same types types').2 same)]
      exact refused
  | _ => exact refused

/-- Whether a value is a structure of a type is the same of related values. -/
theorem isStruct_corresponds (c : Correspondence frame frame' V T E) {t u : StructType}
    (types : T t u) {v w : Value} (related : V v w) : isStruct u w = isStruct t v := by
  cases c.shape related with
  | struct types' _ => exact decide_eq_decide.2 (c.same types types').symm
  | _ => rfl

/-- Applying a function follows applying a related one in another store, if its body does. -/
theorem apply_follows (c : Correspondence frame frame' V T E) (tolerant : Tolerant V P)
    {s t : Store} (live : s.isLive frame = t.isLive frame') {run run' : Scope → Expr → Answer Value}
    (body : ∀ locals locals' e, E e → locals.Related V locals' →
      Follows V P (run ⟨locals, frame⟩ e) (run' ⟨locals', frame'⟩ e))
    {f g : Value} (function : V f g) {args args' : List Value}
    (related : List.Forall₂ V args args') (call : Expr) :
    Follows V P (apply s run f args call) (apply t run' g args' call) := by
  have length := related.length_eq
  cases c.shape function with
  | builtin f => exact follows_ofExcept tolerant (Builtin.apply_corresponds c f related)
  | closure name params good =>
    have counted := checkCount_corresponds V name params.length length
    refine (follows_ofExcept tolerant counted).bind tolerant fun _ _ _ => ?_
    dsimp only
    rw [live]
    split
    · exact body _ _ _ good (Bindings.related_ofList (entriesRelated_zip params related))
    · exact follows_error tolerant .homeless
  | @constructor t u types =>
    obtain ⟨name, fields⟩ := c.alike types
    dsimp only [apply]
    rw [name, fields]
    have counted := checkCount_corresponds V (constructorName t.name) t.fields.length length
    refine (follows_ofExcept tolerant counted).bind tolerant fun _ _ full => ?_
    exact follows_result (c.struct function related full)
  | accessor types index =>
    exact follows_ofExcept tolerant (access_corresponds c types index related)
  | @predicate t u types =>
    dsimp only [apply]
    rw [(c.alike types).1]
    have counted := checkCount_corresponds V (predicateName t.name) 1 length
    refine (follows_ofExcept tolerant counted).bind tolerant fun _ _ _ => ?_
    rw [isStruct_corresponds c types (headD_related c related)]
    exact follows_result (c.boolean _)
  | _ => exact follows_error tolerant .notFunction

/-- Applying a function follows applying the same one to the same arguments in another store, if all
bodies do and the same frames are live. -/
theorem apply_follows_self (tolerant : Tolerant Eq P) (stays : ∀ e, P e (some e)) {s t : Store}
    (live : ∀ id, s.isLive id = t.isLive id) {run run' : Scope → Expr → Answer Value}
    (body : ∀ scope e, Follows Eq P (run scope e) (run' scope e)) {call call' : Expr}
    (blame : Blames Eq P call call') (f : Value) (args : List Value) :
    Follows Eq P (apply s run f args call) (apply t run' f args call') := by
  cases f with
  | builtin | constructor | accessor | predicate => exact follows_self stays
  | closure f =>
    refine (follows_self stays).bind tolerant fun _ _ _ => ?_
    rw [live]
    split
    · exact body _ _
    · exact stays _
  | string | number | boolean | struct => exact blame .notFunction

end Eval

/-! ## The evaluator -/

namespace Store

variable {s t : Store} {frame frame' : FrameId} {V : Value → Value → Prop}
  {T : StructType → StructType → Prop} {E : Expr → Prop} {P : EvalError → Option EvalError → Prop}

/-- The answers for names at the top levels of two frames follow each other. -/
def NamesFollow (s t : Store) (frame frame' : FrameId) (V : Value → Value → Prop) (E : Expr → Prop)
    (P : EvalError → Option EvalError → Prop) : Prop :=
  ∀ name, E (.name name) →
    Follows V P (.ofExcept ((Scope.top frame).lookup s name))
      (.ofExcept ((Scope.top frame').lookup t name))

/-- Inside a call, names are arguments first and otherwise mean what they mean at the top level. -/
theorem NamesFollow.inside (names : s.NamesFollow t frame frame' V E P)
    {locals locals' : Bindings Value} (related : locals.Related V locals')
    {name : String} (good : E (.name name)) :
    Follows V P (.ofExcept (Scope.lookup ⟨locals, frame⟩ s name))
      (.ofExcept (Scope.lookup ⟨locals', frame'⟩ t name)) := by
  have here := related name
  unfold Scope.lookup
  dsimp only
  generalize locals.get? name = a at here ⊢
  generalize locals'.get? name = b at here ⊢
  cases here with
  | some related => exact follows_result related
  | none => exact names name good

/-- If the answers for names follow each other, the answers for expressions do. -/
theorem evalAtFuel_follows (c : Correspondence frame frame' V T E) (tolerant : Tolerant V P)
    (live : s.isLive frame = t.isLive frame') (names : s.NamesFollow t frame frame' V E P)
    (fuel : Nat) {locals locals' : Bindings Value} {e : Expr} (good : E e)
    (related : locals.Related V locals') :
    Follows V P (s.evalAtFuel fuel ⟨locals, frame⟩ e) (t.evalAtFuel fuel ⟨locals', frame'⟩ e) := by
  have truth := c.keepsTruth
  induction fuel generalizing locals locals' e with
  | zero => trivial
  | succ fuel ih =>
    have part : ∀ part ∈ e.parts, Follows V P (s.evalAtFuel fuel ⟨locals, frame⟩ part)
        (t.evalAtFuel fuel ⟨locals', frame'⟩ part) :=
      fun part mem => ih (c.parts good part mem) related
    cases e with
    | string content => exact follows_result (c.literal good)
    | number value => exact follows_result (c.number value)
    | boolean value => exact follows_result (c.boolean value)
    | name word => exact names.inside related good
    | template dots => exact follows_error tolerant .template
    | call function args =>
      have named : E (.name function) := c.parts good _ List.mem_cons_self
      refine (names.inside related named).bind tolerant fun f g function => ?_
      have args' := (List.forall_mem_cons.1 part).2
      have values := Eval.all_follows tolerant (List.forall₂_same.2 args')
      refine values.bind tolerant fun vs ws all => ?_
      exact Eval.apply_follows c tolerant live (fun _ _ _ good related => ih good related) function
        all _
    | ifElse q yes no =>
      obtain ⟨asked, part⟩ := List.forall_mem_cons.1 part
      obtain ⟨whenTrue, part⟩ := List.forall_mem_cons.1 part
      refine (Eval.question_follows tolerant truth (tolerant.blames _) asked).bind tolerant
        fun b b' same => ?_
      cases same
      cases b with
      | true => exact whenTrue
      | false => exact part no List.mem_cons_self
    | cond cs => exact Eval.clauses_follows tolerant truth (tolerant.blames _) (.self part)
    | logical connective es =>
      exact Eval.operands_follows tolerant truth (tolerant.blames _) connective
        (List.forall₂_same.2 part)

/-- If the answers for names follow each other, the answers at the top level do. -/
theorem evalAtFuel_top_follows (c : Correspondence frame frame' V T E) (tolerant : Tolerant V P)
    (live : s.isLive frame = t.isLive frame') (names : s.NamesFollow t frame frame' V E P)
    (fuel : Nat) {e : Expr} (good : E e) :
    Follows V P (s.evalAtFuel fuel (.top frame) e) (t.evalAtFuel fuel (.top frame') e) :=
  evalAtFuel_follows c tolerant live names fuel good fun _ => .none

/-- A value at the top level is followed by a related value. -/
theorem eval?_value_follows (c : Correspondence frame frame' V T E) (tolerant : Tolerant V P)
    (live : s.isLive frame = t.isLive frame') (names : s.NamesFollow t frame frame' V E P)
    {fuel : Nat} {e : Expr} (good : E e) {v : Value} (h : s.eval? fuel frame e = some (.ok v)) :
    ∃ w, t.eval? fuel frame' e = some (.ok w) ∧ V v w := by
  have follows := evalAtFuel_top_follows c tolerant live names fuel good
  rw [finished?_eq_ok_iff.1 h] at follows
  obtain ⟨w, answer, related⟩ := follows
  exact ⟨w, finished?_eq_ok_iff.2 answer, related⟩

/-- An error at the top level is followed by what may come of it. -/
theorem eval?_error_follows (c : Correspondence frame frame' V T E) (tolerant : Tolerant V P)
    (live : s.isLive frame = t.isLive frame') (names : s.NamesFollow t frame frame' V E P)
    {fuel : Nat} {e : Expr} (good : E e) {err : EvalError}
    (h : s.eval? fuel frame e = some (.error err)) :
    ∃ other, P err other ∧
      ∀ err', other = some err' → t.eval? fuel frame' e = some (.error err') := by
  have follows := evalAtFuel_top_follows c tolerant live names fuel good
  rw [finished?_eq_error_iff.1 h] at follows
  refine ⟨_, follows, fun err' failed => ?_⟩
  exact finished?_eq_error_iff.2 (error?_eq_some_iff.1 failed)

end Store

/-! ## Home frames -/

namespace Store

variable {s t : Store} {frame frame' : FrameId} {V : Value → Value → Prop}

/-- What the first frame has a value for, the second has a related value for. -/
def Within (V : Value → Value → Prop) (s : Store) (frame : FrameId) (t : Store)
    (frame' : FrameId) : Prop :=
  ∀ name v, s.slot? frame name = some (.filled (.ok v)) →
    ∃ w, t.slot? frame' name = some (.filled (.ok w)) ∧ V v w

/-- If the values of one home frame are within another, the answers for names follow as far as they
are values. -/
theorem Within.namesFollow (within : Within V s frame t frame') (home : s.IsHome frame)
    (home' : t.IsHome frame') :
    s.NamesFollow t frame frame' V (fun _ => True) fun _ _ => True := by
  intro name _
  rw [home.meaning, home'.meaning]
  cases found : s.slot? frame name with
  | none => trivial
  | some slot =>
    cases slot with
    | reserved => trivial
    | filled result =>
      cases result with
      | error e => trivial
      | ok v =>
        obtain ⟨w, found', related⟩ := within name v found
        rw [found']
        exact follows_result related

/-- If the values of one home frame are within another and correspond, then so do the values of
expressions. -/
theorem Within.eval? {T : StructType → StructType → Prop} (within : Within V s frame t frame')
    (c : Correspondence frame frame' V T fun _ => True) (home : s.IsHome frame)
    (home' : t.IsHome frame') {fuel : Nat} {e : Expr} {v : Value}
    (h : s.eval? fuel frame e = some (.ok v)) :
    ∃ w, t.eval? fuel frame' e = some (.ok w) ∧ V v w := by
  have live : s.isLive frame = t.isLive frame' := by rw [home.live, home'.live]
  exact eval?_value_follows c (tolerant_true V) live (within.namesFollow home home') trivial h

end Store

/-! ## Values at home -/

/-- Something that holds of what evaluation makes by itself, and of structures as it does of what is
inside them. -/
structure Value.Hereditary (Q : Value → Prop) : Prop where
  string : ∀ content, Q (.string content)
  number : ∀ x, Q (.number x)
  boolean : ∀ b, Q (.boolean b)
  fields : ∀ {type : StructType} {vs : List Value}, Q (.struct type vs) → ∀ v ∈ vs, Q v
  struct : ∀ {type : StructType} {vs : List Value}, Q (.constructor type) →
    vs.length = type.fields.length → (∀ v ∈ vs, Q v) → Q (.struct type vs)

/-- Values at home of which something hereditary holds correspond to themselves. -/
theorem Value.Hereditary.correspondence {Q : Value → Prop} (hereditary : Hereditary Q)
    (frame : FrameId) :
    Correspondence frame frame (fun v w => w = v ∧ v.AtHome frame ∧ Q v) Eq fun _ => True where
  shape := by
    rintro v _ ⟨rfl, here, holds⟩
    cases here with
    | string content => exact .string content
    | number x => exact .number x
    | boolean b => exact .boolean b
    | builtin f => exact .builtin f
    | @closure f here =>
      cases here
      exact .closure f.name f.params trivial
    | struct type all =>
      exact .struct rfl (List.forall₂_same.2 fun v mem =>
        ⟨rfl, all v mem, hereditary.fields holds v mem⟩)
    | constructor type => exact .constructor rfl
    | accessor type index => exact .accessor rfl index
    | predicate type => exact .predicate rfl
  alike := by
    rintro t _ rfl
    exact ⟨rfl, rfl⟩
  same := by
    rintro t _ t' _ rfl rfl
    exact Iff.rfl
  parts _ _ _ := trivial
  number x := ⟨rfl, .number x, hereditary.number x⟩
  boolean b := ⟨rfl, .boolean b, hereditary.boolean b⟩
  literal _ := ⟨rfl, .string _, hereditary.string _⟩
  join _ := ⟨rfl, .string _, hereditary.string _⟩
  struct := by
    rintro t _ vs ws ⟨⟨⟩, -, made⟩ related full
    obtain ⟨rfl, all⟩ := forall₂_self_iff.1 related
    exact ⟨rfl, .struct t fun v mem => (all v mem).1,
      hereditary.struct made full fun v mem => (all v mem).2⟩

/-- Values at home correspond to themselves. -/
theorem Value.correspondence_atHome (frame : FrameId) :
    Correspondence frame frame (fun v w => w = v ∧ v.AtHome frame) Eq fun _ => True := by
  have nothingMore : Hereditary fun _ => True :=
    ⟨fun _ => trivial, fun _ => trivial, fun _ => trivial, fun _ _ _ => trivial,
      fun _ _ _ => trivial⟩
  simpa only [and_true] using nothingMore.correspondence frame

namespace Store

variable {s t : Store} {frame : FrameId}

/-- An expression that has a value in a home frame has the same wherever the frame has the same
values, and the value is at home. -/
theorem IsHome.eval?_keeps (home : s.IsHome frame) (home' : t.IsHome frame)
    (keeps : s.Keeps t frame) {fuel : Nat} {e : Expr} {v : Value}
    (h : s.eval? fuel frame e = some (.ok v)) :
    t.eval? fuel frame e = some (.ok v) ∧ v.AtHome frame := by
  have within : Within (fun v w => w = v ∧ v.AtHome frame) s frame t frame :=
    fun name w found => ⟨w, keeps name w found, rfl, home.values name w found⟩
  obtain ⟨w, evaluated, rfl, here⟩ :=
    within.eval? (Value.correspondence_atHome frame) home home' h
  exact ⟨evaluated, here⟩

/-- What an expression evaluates to in a home frame is at home there. -/
theorem IsHome.atHome_eval? (home : s.IsHome frame) {fuel : Nat} {e : Expr} {v : Value}
    (h : s.eval? fuel frame e = some (.ok v)) : v.AtHome frame :=
  (home.eval?_keeps home (.refl s frame) h).2

/-- In a home frame, what is hereditary passes from the values of the frame and the arguments of a
call to what an expression comes to. -/
theorem IsHome.hereditary_evalAtFuel (home : s.IsHome frame) {Q : Value → Prop}
    (hereditary : Value.Hereditary Q)
    (values : ∀ name v, s.slot? frame name = some (.filled (.ok v)) → Q v)
    {locals : Bindings Value}
    (args : ∀ name v, locals.get? name = some v → v.AtHome frame ∧ Q v) {fuel : Nat} {e : Expr}
    {v : Value} (h : s.evalAtFuel fuel ⟨locals, frame⟩ e = .result v) : v.AtHome frame ∧ Q v := by
  have within : Within (fun v w => w = v ∧ v.AtHome frame ∧ Q v) s frame s frame :=
    fun name v found => ⟨v, found, rfl, home.values name v found, values name v found⟩
  have related : locals.Related (fun v w => w = v ∧ v.AtHome frame ∧ Q v) locals := by
    intro name
    cases found : locals.get? name with
    | none => exact .none
    | some v => exact .some ⟨rfl, args name v found⟩
  have follows := evalAtFuel_follows (hereditary.correspondence frame) (tolerant_true _) rfl
    (within.namesFollow home home) fuel (e := e) trivial related
  rw [h] at follows
  obtain ⟨w, -, -, holds⟩ := follows
  exact holds

end Store

end Tyro
