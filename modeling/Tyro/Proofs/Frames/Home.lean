import Tyro.Proofs.Frames.Eval
import Tyro.Proofs.Store.Writable

/-!
# Answers at home

A value is at home in a frame if all functions inside were defined there (`Value.AtHome`). An error
is at home if all values that it reports are, and if it is not the one error that a function can
have that was defined elsewhere: that its frame is gone.

Functions of the language itself have answers at home for arguments at home
(`Eval.atHome_apply`). None of them looks at a frame, so that none meets a frame that is gone
(`Builtin.Operation.Housed`).
-/

namespace Tyro

/-- The values that the error reports are at home in the frame, and the error is not that the frame
of a function is gone. -/
structure EvalError.AtHome (frame : FrameId) (e : EvalError) : Prop where
  values : ∀ v ∈ e.values, v.AtHome frame
  housed : e.fault ≠ .homeless

/-- The value is at home in the frame, or the error that came instead. -/
def OutcomeAtHome (frame : FrameId) : Except EvalError Value → Prop
  | .ok v => v.AtHome frame
  | .error e => e.AtHome frame

/-- The result satisfies `R`, or the error is at home in the frame. -/
def Answer.AtHome {α : Type} (frame : FrameId) (R : α → Prop) : Answer α → Prop
  | .result x => R x
  | .error e => e.AtHome frame
  | .outOfFuel => True

/-- A result that is there if the fuel was enough, as an answer. -/
def Answer.ofOption {α : Type} : Option α → Answer α
  | some x => .result x
  | none => .outOfFuel

variable {frame : FrameId}

/-- An error that reports values at home is at home, unless it is that a frame is gone. -/
theorem EvalError.atHome_of_corresponds {e : EvalError}
    (h : e.Corresponds (fun v w => w = v ∧ v.AtHome frame) e) (housed : e.fault ≠ .homeless) :
    e.AtHome frame := by
  refine ⟨?_, housed⟩
  obtain ⟨context, fault⟩ := e
  obtain ⟨-, faults⟩ := h
  cases faults with
  | notBoolean given | wrongKind _ _ given | wrongStruct _ given =>
    exact List.forall_mem_singleton.2 given.2
  | _ => exact List.forall_mem_nil _

/-- Answers are chained at home. -/
theorem Answer.AtHome.bind {α β : Type} {R : α → Prop} {R' : β → Prop} {a : Answer α}
    {next : α → Answer β} (first : a.AtHome frame R)
    (rest : ∀ x, R x → (next x).AtHome frame R') : (a >>= next).AtHome frame R' := by
  cases a with
  | result x => exact rest x first
  | error e => exact first
  | outOfFuel => trivial

/-- An outcome at home is an answer at home. -/
theorem OutcomeAtHome.ofExcept {r : Except EvalError Value} (h : OutcomeAtHome frame r) :
    (Answer.ofExcept r).AtHome frame (Value.AtHome frame) := by
  cases r <;> exact h

/-- What becomes of an answer at home is an outcome at home. -/
theorem Answer.AtHome.finished? {a : Answer Value} (h : a.AtHome frame (Value.AtHome frame))
    {r : Except EvalError Value} (finished : a.finished? = some r) : OutcomeAtHome frame r := by
  cases a <;> cases finished <;> exact h

/-! ## Faults -/

/-- The computation has a result, or fails for another reason than that a frame is gone. -/
def Housed {α : Type} : Except EvalFault α → Prop
  | .ok _ => True
  | .error fault => fault ≠ .homeless

/-- Computations are chained without meeting a frame that is gone. -/
theorem Housed.bind {α β : Type} {r : Except EvalFault α} {next : α → Except EvalFault β}
    (first : Housed r) (rest : ∀ x, Housed (next x)) : Housed (r.bind next) := by
  cases r with
  | ok x => exact rest x
  | error fault => exact first

/-- What is made of a result does not matter. -/
theorem Housed.map {α β : Type} {r : Except EvalFault α} (h : Housed r) (f : α → β) :
    Housed (r.map f) := by
  cases r <;> exact h

namespace Builtin

/-- An operation on numbers does not refuse them because a frame is gone. -/
def Operation.IsHoused : Operation → Prop
  | .onNumbers compute => ∀ xs, Housed (compute xs)
  | _ => True

/-- Numbers are divided, or refused for a zero. -/
theorem housed_divideAll (x : Float) (ys : List Float) : Housed (divideAll x ys) := by
  rcases divideAll_cases x ys with ⟨z, result⟩ | zero
  · rw [result]
    trivial
  · rw [zero]
    nofun

/-- A quotient is refused for nothing but a zero. -/
theorem housed_quotient (xs : List Float) : Housed (quotient xs) := by
  unfold quotient
  split
  · trivial
  · exact housed_divideAll 1 _
  · exact housed_divideAll _ _

/-- A root is refused for a negative number. -/
theorem housed_root (xs : List Float) : Housed (root xs) := by
  unfold root
  dsimp only
  split
  · nofun
  · trivial

/-- No operation meets a frame that is gone. -/
theorem housed_operation (f : Builtin) : f.operation.IsHoused := by
  cases f with
  | divide => exact fun xs => (housed_quotient xs).map _
  | squareRoot => exact housed_root
  | stringAppend | stringLength | stringEqual | not | same => trivial
  | isNumber | isString | isBoolean => trivial
  | _ => exact fun _ => trivial

/-- Arguments are refused for their kind. -/
theorem housed_viewAll {α : Type} (view : Value → Option α) (wanted : ArgKind) (index : Nat)
    (args : List Value) : Housed (viewAll view wanted index args) := by
  induction args generalizing index with
  | nil => trivial
  | cons v vs ih =>
    unfold viewAll
    cases view v with
    | none =>
      intro same
      cases same
    | some x => exact (ih (index + 1)).map _

/-- What an operation makes of arguments is not that a frame is gone. -/
theorem Operation.IsHoused.run {op : Operation} (h : op.IsHoused) (args : List Value) :
    Housed (op.run args) := by
  cases op with
  | onNumbers compute => exact (housed_viewAll _ _ _ args).bind h
  | onStrings compute => exact (housed_viewAll _ _ _ args).map compute
  | onBooleans compute => exact (housed_viewAll _ _ _ args).map compute
  | onValues compute => trivial

/-- **Built-in functions have outcomes at home** for arguments at home. -/
theorem atHome_apply (f : Builtin) {args : List Value} (here : ∀ v ∈ args, v.AtHome frame) :
    OutcomeAtHome frame (f.apply args) := by
  have related := forall₂_self_iff.2 ⟨rfl, here⟩
  have corresponds := apply_corresponds (Value.correspondence_atHome frame) f related
  have housed := (housed_operation f).run args
  unfold apply at corresponds ⊢
  split
  · next accepted =>
    rw [if_pos accepted] at corresponds
    generalize f.operation.run args = r at corresponds housed ⊢
    cases r with
    | ok v => exact corresponds.2
    | error fault => exact EvalError.atHome_of_corresponds corresponds housed
  · exact ⟨List.forall_mem_nil _, nofun⟩

end Builtin

/-! ## Applying functions -/

namespace Eval

/-- A number of arguments is refused without a value. -/
theorem atHome_checkCount (name : String) (count : Nat) (args : List Value) :
    (Answer.ofExcept (checkCount name count args)).AtHome frame fun _ => args.length = count := by
  unfold checkCount
  split
  · next accepted => exact Arity.accepts_exactly.1 accepted
  · exact ⟨List.forall_mem_nil _, nofun⟩

/-- The first argument is at home if all arguments are. -/
theorem atHome_headD {args : List Value} (here : ∀ v ∈ args, v.AtHome frame) :
    (args.headD default).AtHome frame := by
  cases args with
  | nil => exact .boolean false
  | cons v vs => exact here v List.mem_cons_self

/-- The field of a structure at home is at home. -/
theorem atHome_access (type : StructType) (index : Nat) {args : List Value}
    (here : ∀ v ∈ args, v.AtHome frame) :
    OutcomeAtHome frame (access type index args) := by
  have given := atHome_headD here
  unfold access checkCount
  generalize accessorName type.name (type.field index) = name
  have refused : OutcomeAtHome frame
      (.error (.about name (.wrongStruct type.name (args.headD default)))) :=
    ⟨List.forall_mem_singleton.2 given, nofun⟩
  split
  · generalize args.headD default = v at given refused
    cases given with
    | @struct type' fields all =>
      dsimp only
      split
      · cases found : fields[index]? with
        | some v => exact all v (List.mem_of_getElem? found)
        | none => exact refused
      · exact refused
    | _ => exact refused
  · exact ⟨List.forall_mem_nil _, nofun⟩

/-- **Functions of the language have answers at home** for arguments at home, whatever the store and
the evaluator are. -/
theorem atHome_apply {s : Store} {run : Scope → Expr → Answer Value} {f : Value}
    (own : ∀ g, f ≠ .closure g) {args : List Value} (here : ∀ v ∈ args, v.AtHome frame)
    (call : Expr) : (apply s run f args call).AtHome frame (Value.AtHome frame) := by
  cases f with
  | builtin f => exact (f.atHome_apply here).ofExcept
  | closure f => exact absurd rfl (own f)
  | constructor type =>
    exact (atHome_checkCount _ _ args).bind fun _ _ => .struct type here
  | accessor type index => exact (atHome_access type index here).ofExcept
  | predicate type => exact (atHome_checkCount _ _ args).bind fun _ _ => .boolean _
  | _ => exact ⟨List.forall_mem_nil _, nofun⟩

end Eval

end Tyro
