import Tyro.Builtin.Apply
import Tyro.Proofs.Eval.Correspondence

/-!
# What built-in functions make of related arguments

A built-in function looks at its arguments as numbers, strings or truth values, or asks for their
kind, and so it cannot tell related values apart. `Operation.Keeps` says this of one operation and
`keeps_operation` of all; `Builtin.apply_corresponds` adds the check of the number of arguments.
-/

namespace Tyro.Builtin

variable {frame frame' : FrameId} {V : Value → Value → Prop} {T : StructType → StructType → Prop}
  {E : Expr → Prop}

/-- Results that are related values, or faults that correspond. -/
abbrev Alike (V : Value → Value → Prop) : Except EvalFault Value → Except EvalFault Value → Prop :=
  Outcome (EvalFault.Corresponds V) V

/-- Related arguments are viewed as the same contents, or refused with faults that correspond. -/
theorem viewAll_corresponds {α : Type} {view : Value → Option α} {args args' : List Value}
    (related : List.Forall₂ V args args') (same : ∀ v w, V v w → view w = view v)
    (wanted : ArgKind) (index : Nat) :
    Outcome (EvalFault.Corresponds V)
      (fun xs xs' => xs' = xs ∧ ∀ x ∈ xs, ∃ v w, V v w ∧ view v = some x)
      (viewAll view wanted index args) (viewAll view wanted index args') := by
  induction related generalizing index with
  | nil => exact ⟨rfl, nofun⟩
  | @cons v w vs ws first _ ih =>
    unfold viewAll
    rw [same v w first]
    cases viewed : view v with
    | none => exact .wrongKind wanted index first
    | some x =>
      refine (ih (index + 1)).bind fun xs xs' h => ?_
      obtain ⟨rfl, all⟩ := h
      exact ⟨rfl, List.forall_mem_cons.2 ⟨⟨v, w, first, viewed⟩, all⟩⟩

/-- What an operation computes from arguments of the right kind is related to itself, or to what it
computes from related arguments. -/
def Operation.Keeps (V : Value → Value → Prop) : Operation → Prop
  | .onNumbers compute => ∀ xs, Alike V (compute xs) (compute xs)
  | .onStrings compute =>
    ∀ ss, (∀ s ∈ ss, V (.string s) (.string s)) → V (compute ss) (compute ss)
  | .onBooleans compute => ∀ bs, V (compute bs) (compute bs)
  | .onValues compute => ∀ vs ws, List.Forall₂ V vs ws → V (compute vs) (compute ws)

/-- What an operation makes of related arguments is related. -/
theorem Operation.run_corresponds (c : Correspondence frame frame' V T E) {op : Operation}
    (keeps : op.Keeps V) {args args' : List Value} (related : List.Forall₂ V args args') :
    Alike V (op.run args) (op.run args') := by
  cases op with
  | onNumbers compute =>
    refine (viewAll_corresponds related (fun _ _ => c.number?) .number 0).bind fun xs xs' h => ?_
    rw [h.1]
    exact keeps xs
  | onStrings compute =>
    refine (viewAll_corresponds related (fun _ _ => c.string?) .string 0).bind fun ss ss' h => ?_
    obtain ⟨rfl, all⟩ := h
    refine keeps ss' fun s mem => ?_
    obtain ⟨v, w, related, viewed⟩ := all s mem
    exact c.string_self related viewed
  | onBooleans compute =>
    refine (viewAll_corresponds related (fun _ _ => c.boolean?) .boolean 0).bind fun bs bs' h => ?_
    rw [h.1]
    exact keeps bs
  | onValues compute => exact keeps args args' related

/-- Division by several numbers has a result or is refused for a zero. -/
theorem divideAll_cases (x : Float) (ys : List Float) :
    (∃ z, divideAll x ys = .ok z) ∨ divideAll x ys = .error .divisionByZero := by
  induction ys generalizing x with
  | nil => exact .inl ⟨x, rfl⟩
  | cons y ys ih =>
    unfold divideAll
    split
    · exact .inr rfl
    · exact ih _

/-- The quotient of numbers is related to itself. -/
theorem quotient_corresponds (c : Correspondence frame frame' V T E) (xs : List Float) :
    Alike V ((quotient xs).map .number) ((quotient xs).map .number) := by
  have divided (x : Float) (ys : List Float) :
      Alike V ((divideAll x ys).map .number) ((divideAll x ys).map .number) := by
    rcases divideAll_cases x ys with ⟨z, result⟩ | zero
    · rw [result]
      exact c.number z
    · rw [zero]
      exact .divisionByZero
  unfold quotient
  split
  · exact c.number 1
  · exact divided 1 _
  · exact divided _ _

/-- The square root of a number is related to itself. -/
theorem root_corresponds (c : Correspondence frame frame' V T E) (xs : List Float) :
    Alike V (root xs) (root xs) := by
  unfold root
  dsimp only
  split
  · exact .wrongKind _ _ (c.number _)
  · exact c.number _

/-- A test of the first value passes for related values alike. -/
theorem firstIs_corresponds (c : Correspondence frame frame' V T E) {test : Value → Bool}
    (same : ∀ {v w}, V v w → test w = test v) {vs ws : List Value}
    (related : List.Forall₂ V vs ws) : V (firstIs test vs) (firstIs test ws) := by
  cases related with
  | nil => exact c.boolean _
  | cons first _ =>
    unfold firstIs
    rw [List.head?_cons, List.head?_cons, Option.any_some, Option.any_some, same first]
    exact c.boolean _

/-- Related pairs are equal alike. -/
theorem equalPair_corresponds (c : Correspondence frame frame' V T E) {vs ws : List Value}
    (related : List.Forall₂ V vs ws) : equalPair ws = equalPair vs := by
  match related with
  | .nil => rfl
  | .cons _ .nil => rfl
  | .cons first (.cons second .nil) => exact c.equal first second
  | .cons _ (.cons _ (.cons _ _)) => rfl

/-- **Built-in functions cannot tell related values apart.** -/
theorem keeps_operation (c : Correspondence frame frame' V T E) (f : Builtin) :
    f.operation.Keeps V := by
  cases f with
  | add | subtract | multiply | sine | cosine | absolute => exact fun _ => c.number _
  | divide => exact quotient_corresponds c
  | squareRoot => exact root_corresponds c
  | equal | less | greater | atMost | atLeast | not => exact fun _ => c.boolean _
  | stringAppend => exact fun _ => c.join
  | stringLength => exact fun _ _ => c.number _
  | stringEqual => exact fun _ _ => c.boolean _
  | same =>
    intro vs ws related
    dsimp only
    rw [equalPair_corresponds c related]
    exact c.boolean _
  | isNumber => exact fun _ _ => firstIs_corresponds c fun h => by rw [c.number? h]
  | isString => exact fun _ _ => firstIs_corresponds c fun h => by rw [c.string? h]
  | isBoolean => exact fun _ _ => firstIs_corresponds c fun h => by rw [c.boolean? h]

/-- What a built-in function makes of related arguments is related. -/
theorem apply_corresponds (c : Correspondence frame frame' V T E) (f : Builtin)
    {args args' : List Value} (related : List.Forall₂ V args args') :
    Outcome (EvalError.Corresponds V) V (f.apply args) (f.apply args') := by
  unfold apply
  rw [related.length_eq]
  split
  · have ran := Operation.run_corresponds c (keeps_operation c f) related
    generalize f.operation.run args = r at ran ⊢
    generalize f.operation.run args' = r' at ran ⊢
    cases r with
    | ok v =>
      cases r' with
      | ok w => exact ran
      | error fault => exact ran.elim
    | error fault =>
      cases r' with
      | ok w => exact ran.elim
      | error fault' => exact ⟨rfl, ran⟩
  · exact ⟨rfl, .arity _ _⟩

end Tyro.Builtin
