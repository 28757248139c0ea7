import Mathlib.Data.List.Forall2
import Tyro.Store.Basic

/-!
# Correspondence of values

What two evaluations may have in place of each other. `Correspondence` is what a relation `V`
between values has to bring along, so that evaluation can be proved to keep it once and for all:
related values have the same shape, and what evaluation makes of related values is related. The
relation can be equality together with something that holds of all values that a program makes, and
it can go between the values of two stores, whose structure types and frames have different numbers.

Faults and errors correspond when they differ in the values alone that they report
(`EvalError.Corresponds`), and outcomes when both are values or both are errors (`Outcome`).
-/

namespace Tyro

/-! ## Parts of expressions -/

/-- The expressions of the clauses. -/
def Clauses.exprs : Clauses → List Expr
  | .none => []
  | .otherwise answer => [answer]
  | .clause question answer rest => question :: answer :: rest.exprs

/-- The expressions directly inside an expression. The function of a call is one of them. -/
def Expr.parts : Expr → List Expr
  | .call function args => .name function :: args
  | .ifElse question yes no => [question, yes, no]
  | .cond clauses => clauses.exprs
  | .logical _ operands => operands
  | _ => []

/-- Clauses of the same kinds one after the other, with related expressions. -/
inductive Clauses.Related (X : Expr → Expr → Prop) : Clauses → Clauses → Prop
  | none : Related X .none .none
  | otherwise {answer answer' : Expr} (answered : X answer answer') :
    Related X (.otherwise answer) (.otherwise answer')
  | clause {question question' answer answer' : Expr} {rest rest' : Clauses}
    (asked : X question question') (answered : X answer answer') (others : Related X rest rest') :
    Related X (.clause question answer rest) (.clause question' answer' rest')

/-- Clauses are related to themselves if their expressions are. -/
theorem Clauses.Related.self {X : Expr → Expr → Prop} {cs : Clauses}
    (self : ∀ e ∈ cs.exprs, X e e) : cs.Related X cs := by
  match cs with
  | .none => exact .none
  | .otherwise answer => exact .otherwise (self answer List.mem_cons_self)
  | .clause q answer rest =>
    obtain ⟨asked, self⟩ := List.forall_mem_cons.1 self
    obtain ⟨answered, others⟩ := List.forall_mem_cons.1 self
    exact .clause asked answered (.self others)

/-- Clauses with related expressions have expressions that are related in any weaker way. -/
theorem Clauses.Related.imp {X Y : Expr → Expr → Prop} (weaker : ∀ e e', X e e' → Y e e')
    {cs cs' : Clauses} (related : cs.Related X cs') : cs.Related Y cs' := by
  induction related with
  | none => exact .none
  | otherwise answered => exact .otherwise (weaker _ _ answered)
  | clause asked answered _ ih => exact .clause (weaker _ _ asked) (weaker _ _ answered) ih

/-! ## Related values -/

/-- A relation between values that tells nothing apart that a question does not. -/
structure KeepsTruth (V : Value → Value → Prop) : Prop where
  /-- Related values are the same boolean, if they are booleans. -/
  boolean? : ∀ {v w : Value}, V v w → w.boolean? = v.boolean?
  boolean : ∀ b : Bool, V (.boolean b) (.boolean b)

/-- Equal values answer a question alike. -/
theorem keepsTruth_eq : KeepsTruth Eq :=
  ⟨fun same => by rw [same], fun _ => rfl⟩

/-- Where a relation is equality with something more, related lists are equal. -/
theorem forall₂_self_iff {α : Type} {Q : α → Prop} {xs ys : List α} :
    List.Forall₂ (fun x y => y = x ∧ Q x) xs ys ↔ ys = xs ∧ ∀ x ∈ xs, Q x := by
  constructor
  · intro related
    induction related with
    | nil => exact ⟨rfl, List.forall_mem_nil _⟩
    | cons first _ ih =>
      obtain ⟨rfl, here⟩ := first
      obtain ⟨rfl, all⟩ := ih
      exact ⟨rfl, List.forall_mem_cons.2 ⟨here, all⟩⟩
  · rintro ⟨rfl, all⟩
    exact List.forall₂_same.2 fun x mem => ⟨rfl, all x mem⟩

/-- What is in the first of two related lists is related to something in the second. -/
theorem exists_of_mem_left {α β : Type} {R : α → β → Prop} {xs : List α} {ys : List β}
    (related : List.Forall₂ R xs ys) {x : α} (mem : x ∈ xs) : ∃ y ∈ ys, R x y := by
  induction related with
  | nil => cases mem
  | cons first _ ih =>
    rcases List.mem_cons.1 mem with rfl | later
    · exact ⟨_, List.mem_cons_self, first⟩
    · obtain ⟨y, mem', here⟩ := ih later
      exact ⟨y, List.mem_cons_of_mem _ mem', here⟩

/-- Two values of the same shape. Their fields are related by `V` and their types by `T`; functions
that a program defined belong to the two frames, and their body, one for both, satisfies `E`. -/
inductive Value.Shape (frame frame' : FrameId) (V : Value → Value → Prop)
    (T : StructType → StructType → Prop) (E : Expr → Prop) : Value → Value → Prop
  | string (content : String) : Shape frame frame' V T E (.string content) (.string content)
  | number (value : Float) : Shape frame frame' V T E (.number value) (.number value)
  | boolean (value : Bool) : Shape frame frame' V T E (.boolean value) (.boolean value)
  | builtin (f : Builtin) : Shape frame frame' V T E (.builtin f) (.builtin f)
  | closure (name : String) (params : List String) {body : Expr} (good : E body) :
    Shape frame frame' V T E (.closure ⟨name, params, body, frame⟩)
      (.closure ⟨name, params, body, frame'⟩)
  | struct {t u : StructType} {vs ws : List Value} (types : T t u) (fields : List.Forall₂ V vs ws) :
    Shape frame frame' V T E (.struct t vs) (.struct u ws)
  | constructor {t u : StructType} (types : T t u) :
    Shape frame frame' V T E (.constructor t) (.constructor u)
  | accessor {t u : StructType} (types : T t u) (index : Nat) :
    Shape frame frame' V T E (.accessor t index) (.accessor u index)
  | predicate {t u : StructType} (types : T t u) :
    Shape frame frame' V T E (.predicate t) (.predicate u)

/-- A relation between values that evaluation keeps, with the structure types that belong together
and what holds of the expressions that are evaluated. -/
structure Correspondence (frame frame' : FrameId) (V : Value → Value → Prop)
    (T : StructType → StructType → Prop) (E : Expr → Prop) : Prop where
  /-- Related values have the same shape. -/
  shape : ∀ {v w : Value}, V v w → v.Shape frame frame' V T E w
  /-- Types that belong together look alike. -/
  alike : ∀ {t u : StructType}, T t u → u.name = t.name ∧ u.fields = t.fields
  /-- Types belong together one to one. -/
  same : ∀ {t u t' u' : StructType}, T t u → T t' u' → (t' = t ↔ u' = u)
  /-- What holds of an expression holds of its parts. -/
  parts : ∀ {e : Expr}, E e → ∀ part ∈ e.parts, E part
  number : ∀ x : Float, V (.number x) (.number x)
  boolean : ∀ b : Bool, V (.boolean b) (.boolean b)
  /-- A string can be written in an expression. -/
  literal : ∀ {content : String}, E (.string content) → V (.string content) (.string content)
  /-- Strings can be joined. -/
  join : ∀ {contents : List String}, (∀ content ∈ contents, V (.string content) (.string content)) →
    V (.string (String.join contents)) (.string (String.join contents))
  /-- A constructor makes structures. -/
  struct : ∀ {t u : StructType} {vs ws : List Value}, V (.constructor t) (.constructor u) →
    List.Forall₂ V vs ws → vs.length = t.fields.length → V (.struct t vs) (.struct u ws)

namespace Correspondence

variable {frame frame' : FrameId} {V : Value → Value → Prop} {T : StructType → StructType → Prop}
  {E : Expr → Prop} {v w v' w' : Value}

/-- Related values are the same number, if they are numbers. -/
theorem number? (c : Correspondence frame frame' V T E) (h : V v w) : w.number? = v.number? := by
  cases c.shape h <;> rfl

/-- Related values are the same string, if they are strings. -/
theorem string? (c : Correspondence frame frame' V T E) (h : V v w) : w.string? = v.string? := by
  cases c.shape h <;> rfl

/-- Related values are the same boolean, if they are booleans. -/
theorem boolean? (c : Correspondence frame frame' V T E) (h : V v w) : w.boolean? = v.boolean? := by
  cases c.shape h <;> rfl

/-- Related values answer a question alike. -/
theorem keepsTruth (c : Correspondence frame frame' V T E) : KeepsTruth V :=
  ⟨c.boolean?, c.boolean⟩

/-- The string that a value is, is related to itself. -/
theorem string_self (c : Correspondence frame frame' V T E) (h : V v w) {content : String}
    (is : v.string? = some content) : V (.string content) (.string content) := by
  cases c.shape h with
  | string =>
    cases is
    exact h
  | _ => cases is

/-- Related values are equal to related values alike. -/
theorem equal (c : Correspondence frame frame' V T E) (h : V v w) (h' : V v' w') :
    w.equal w' = v.equal v' := by
  cases c.shape h <;> cases c.shape h' <;> rfl

end Correspondence

/-! ## Related bindings -/

/-- Each name is bound to related things, or to nothing twice. -/
def Bindings.Related {α β : Type} (R : α → β → Prop) (b : Bindings α) (b' : Bindings β) : Prop :=
  ∀ name, Option.Rel R (b.get? name) (b'.get? name)

/-- Entries for one name with related contents. -/
def EntriesRelated {α β : Type} (R : α → β → Prop) (a : String × α) (b : String × β) : Prop :=
  b.1 = a.1 ∧ R a.2 b.2

/-- Related entries make related bindings. -/
theorem Bindings.related_ofList {α β : Type} {R : α → β → Prop} {entries : List (String × α)}
    {entries' : List (String × β)} (related : List.Forall₂ (EntriesRelated R) entries entries') :
    Related R (ofList entries) (ofList entries') := by
  suffices inserted : ∀ {b b'}, Related R b b' →
      Related R (b.insertAll entries) (b'.insertAll entries') from inserted fun _ => .none
  induction related with
  | nil => exact fun before => before
  | @cons entry entry' _ _ first _ ih =>
    intro b b' before
    obtain ⟨key, x⟩ := entry
    obtain ⟨key', y⟩ := entry'
    obtain ⟨rfl, here⟩ := first
    refine ih fun name => ?_
    rw [get?_insert, get?_insert]
    split
    · exact .some here
    · exact before name

/-- Binding what entries are mapped to is mapping what they bind. -/
theorem Bindings.get?_ofList_map {α β : Type} (f : α → β) (entries : List (String × α))
    (name : String) :
    (ofList (entries.map fun (key, x) => (key, f x))).get? name =
      ((ofList entries).get? name).map f := by
  have mapped : List.Forall₂ (EntriesRelated fun x y => y = f x) entries
      (entries.map fun (key, x) => (key, f x)) :=
    List.forall₂_map_right_iff.2 (List.forall₂_same.2 fun _ _ => ⟨rfl, rfl⟩)
  have related := related_ofList mapped name
  generalize (ofList entries).get? name = a at related ⊢
  generalize (ofList (entries.map fun (key, x) => (key, f x))).get? name = b at related ⊢
  cases related with
  | none => rfl
  | some same => rw [same, Option.map_some]

/-- The same names stand for related arguments. -/
theorem entriesRelated_zip {α β : Type} {R : α → β → Prop} (names : List String) {xs : List α}
    {ys : List β} (related : List.Forall₂ R xs ys) :
    List.Forall₂ (EntriesRelated R) (names.zip xs) (names.zip ys) := by
  induction related generalizing names with
  | nil =>
    rw [List.zip_nil_right, List.zip_nil_right]
    exact .nil
  | cons first _ ih =>
    cases names with
    | nil => exact .nil
    | cons name names => exact .cons ⟨rfl, first⟩ (ih names)

/-! ## Related faults -/

/-- Two faults of one kind that report related values. That a name is not defined, or defined later,
is no fault of this kind: it depends on the store. -/
inductive EvalFault.Corresponds (V : Value → Value → Prop) : EvalFault → EvalFault → Prop
  | template : Corresponds V .template .template
  | notBoolean {v w : Value} (given : V v w) : Corresponds V (.notBoolean v) (.notBoolean w)
  | noAnswer : Corresponds V .noAnswer .noAnswer
  | arity (allowed : Arity) (count : Nat) : Corresponds V (.arity allowed count)
    (.arity allowed count)
  | notFunction : Corresponds V .notFunction .notFunction
  | wrongKind (wanted : ArgKind) (index : Nat) {v w : Value} (given : V v w) :
    Corresponds V (.wrongKind wanted index v) (.wrongKind wanted index w)
  | wrongStruct (wanted : String) {v w : Value} (given : V v w) :
    Corresponds V (.wrongStruct wanted v) (.wrongStruct wanted w)
  | divisionByZero : Corresponds V .divisionByZero .divisionByZero
  | homeless : Corresponds V .homeless .homeless

/-- Two errors that are reported against one expression and differ in the values alone that they
report. -/
def EvalError.Corresponds (V : Value → Value → Prop) (e e' : EvalError) : Prop :=
  e'.context = e.context ∧ e.fault.Corresponds V e'.fault

/-- An error that corresponds to another is none about a name without a definition. -/
theorem EvalError.Corresponds.defined {V : Value → Value → Prop} {e e' : EvalError}
    (h : e.Corresponds V e') : e.fault ≠ .undefined := by
  intro undefined
  have faults := h.2
  rw [undefined] at faults
  cases faults

/-- Where related values are equal, errors that correspond are. -/
theorem EvalError.Corresponds.eq {V : Value → Value → Prop} {e e' : EvalError}
    (h : e.Corresponds V e') (equal : ∀ v w, V v w → w = v) : e' = e := by
  obtain ⟨context, fault⟩ := e
  obtain ⟨context', fault'⟩ := e'
  obtain ⟨same, faults⟩ := h
  cases same
  cases faults with
  | notBoolean given | wrongKind _ _ given | wrongStruct _ given => rw [equal _ _ given]
  | _ => rfl

/-- Two outcomes that are both results or both failures, related by `R` or by `F`. -/
def Outcome {ε ε' α β : Type} (F : ε → ε' → Prop) (R : α → β → Prop) :
    Except ε α → Except ε' β → Prop
  | .ok x, .ok y => R x y
  | .error e, .error e' => F e e'
  | _, _ => False

/-- What is made of related outcomes is related. -/
theorem Outcome.bind {ε ε' α α' β β' : Type} {F : ε → ε' → Prop} {R : α → β → Prop}
    {R' : α' → β' → Prop} {x : Except ε α} {y : Except ε' β} {next : α → Except ε α'}
    {next' : β → Except ε' β'} (h : Outcome F R x y)
    (rest : ∀ a b, R a b → Outcome F R' (next a) (next' b)) :
    Outcome F R' (x >>= next) (y >>= next') := by
  cases x with
  | ok a =>
    cases y with
    | ok b => exact rest a b h
    | error e => exact h.elim
  | error e =>
    cases y with
    | ok b => exact h.elim
    | error e' => exact h

end Tyro
