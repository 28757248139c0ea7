import Tyro.Proofs.Guarded.Value

/-!
# Built-in functions that index their arguments

A built-in function takes its arguments out of a list by their places, after it has checked how many
there are. `Guarded.Operation` has every such step written out: it has no result where an argument
is missing. `Attempt` is an answer that may also be `broken` off in this way, which happens too
where an error is reported with a value that cannot be written down.

`Guarded.applyBuiltin_eq` says that nothing of this happens: once the number of arguments has been
checked, every argument that is taken is there (`Guarded.operation_completes`).
-/

namespace Tyro.Guarded

open Builtin

/-! ## Attempts -/

/-- An answer, or that the evaluation was broken off. -/
inductive Attempt (α : Type) where
  | result (value : α)
  | error (error : EvalError)
  | outOfFuel
  | broken

namespace Attempt

variable {α β : Type}

/-- Goes on with the result, if there is one. -/
def bind (a : Attempt α) (next : α → Attempt β) : Attempt β :=
  match a with
  | .result x => next x
  | .error e => .error e
  | .outOfFuel => .outOfFuel
  | .broken => .broken

instance : Monad Attempt where
  pure := .result
  bind := bind

/-- An answer, as an attempt that is not broken off. -/
def ofAnswer : Answer α → Attempt α
  | .result x => .result x
  | .error e => .error e
  | .outOfFuel => .outOfFuel

/-- A step that is broken off where it has no result. -/
def ofStep : Option α → Attempt α
  | some x => .result x
  | none => .broken

/-- An error, which is reported in words. -/
def raise (e : EvalError) : Attempt α :=
  match Value.renderAll? e.values with
  | some _ => .error e
  | none => .broken

/-- A result or an error, which is reported in words. -/
def ofExcept : Except EvalError α → Attempt α
  | .ok x => .result x
  | .error e => raise e

@[simp] theorem result_bind (x : α) (next : α → Attempt β) :
    (Attempt.result x >>= next) = next x := rfl

/-- An error that reports sound values can be reported. -/
theorem raise_eq {e : EvalError} (sound : e.Sound) : (raise e : Attempt α) = .error e := by
  rw [raise, Value.renderAll?_eq fun v mem => (sound v mem).render?_eq]

/-- Answers that are chained are answers. -/
theorem ofAnswer_bind {a : Answer α} {g : Attempt α} {next : α → Answer β}
    {next' : α → Attempt β} (first : g = ofAnswer a)
    (rest : ∀ x, a = .result x → next' x = ofAnswer (next x)) :
    (g >>= next') = ofAnswer (a >>= next) := by
  subst first
  cases a with
  | result x => exact rest x rfl
  | error e => rfl
  | outOfFuel => rfl

end Attempt

/-! ## Operations -/

/-- What a function computes, with no result where an argument is missing. -/
inductive Operation where
  | onNumbers (compute : List Float → Option (Except EvalFault Value))
  | onStrings (compute : List String → Option Value)
  | onBooleans (compute : List Bool → Option Value)
  | onValues (compute : List Value → Option Value)

/-- The first number less all others; of a single number, its negative. That there is a number has
been checked. -/
def difference? : List Float → Option Float
  | [x] => some (-x)
  | x :: rest => some (rest.foldl (· - ·) x)
  | [] => none

/-- The first number divided by all others; of a single number, its reciprocal. That there is a
number has been checked. -/
def quotient? : List Float → Option (Except EvalFault Float)
  | [x] => some (divideAll 1 [x])
  | x :: rest => some (divideAll x rest)
  | [] => none

/-- A function of the first number. -/
def onFirst? (compute : Float → Float) (xs : List Float) : Option (Except EvalFault Value) := do
  return .ok (.number (compute (← xs[0]?)))

/-- The square root of the first number, which must not be negative. -/
def root? (xs : List Float) : Option (Except EvalFault Value) := do
  let x ← xs[0]?
  if x < 0 then return .error (.wrongKind .nonNegative 0 (.number (← xs[0]?)))
  else return .ok (.number x.sqrt)

/-- The pairs of neighbours in a list. -/
def neighbours {α : Type} : List α → List (List α)
  | x :: y :: rest => [x, y] :: neighbours (y :: rest)
  | _ => []

/-- Whether a relation holds between each two neighbours of a list. -/
def chain? {α : Type} (related : α → α → Bool) (xs : List α) : Option Bool :=
  (neighbours xs).allM fun pair => do return related (← pair[0]?) (← pair[1]?)

/-- A comparison of numbers that holds between all neighbours. -/
def comparison? (related : Float → Float → Bool) : Operation :=
  .onNumbers fun xs => do return .ok (.boolean (← chain? related xs))

/-- Whether the first value passes a test. -/
def firstIs? (test : Value → Bool) (vs : List Value) : Option Value := do
  return .boolean (test (← vs[0]?))

/-- What the function computes. -/
def operation : Builtin → Operation
  | .add => .onNumbers fun xs => some (.ok (.number (sum xs)))
  | .subtract => .onNumbers fun xs => do return .ok (.number (← difference? xs))
  | .multiply => .onNumbers fun xs => some (.ok (.number (product xs)))
  | .divide => .onNumbers fun xs => do return (← quotient? xs).map .number
  | .equal => comparison? fun x y => x == y
  | .less => comparison? fun x y => x < y
  | .greater => comparison? fun x y => x > y
  | .atMost => comparison? fun x y => x ≤ y
  | .atLeast => comparison? fun x y => x ≥ y
  | .sine => .onNumbers (onFirst? Float.sin)
  | .cosine => .onNumbers (onFirst? Float.cos)
  | .squareRoot => .onNumbers root?
  | .absolute => .onNumbers (onFirst? Float.abs)
  | .stringAppend => .onStrings fun ss => some (.string (String.join ss))
  | .stringLength => .onStrings fun ss => do return .number (Float.ofNat (← ss[0]?).length)
  | .stringEqual => .onStrings fun ss => do return .boolean (← chain? (fun s t => s = t) ss)
  | .not => .onBooleans fun bs => do return .boolean !(← bs[0]?)
  | .same => .onValues fun vs => do return .boolean ((← vs[0]?).equal (← vs[1]?))
  | .isNumber => .onValues (firstIs? fun v => v.number?.isSome)
  | .isString => .onValues (firstIs? fun v => v.string?.isSome)
  | .isBoolean => .onValues (firstIs? fun v => v.boolean?.isSome)

/-- The arguments as what is wanted, or the fault of the first one that is something else. -/
def viewAll {α : Type} (f : Builtin) (view : Value → Option α) (wanted : ArgKind)
    (args : List Value) : Attempt (List α) :=
  .ofExcept ((Builtin.viewAll view wanted 0 args).mapError (EvalError.about f.name))

/-- Applies a built-in function to arguments. -/
def applyBuiltin (f : Builtin) (args : List Value) : Attempt Value :=
  if f.arity.accepts args.length then
    match operation f with
    | .onNumbers compute => do
      let result ← .ofStep (compute (← viewAll f Value.number? .number args))
      .ofExcept (result.mapError (EvalError.about f.name))
    | .onStrings compute => do .ofStep (compute (← viewAll f Value.string? .string args))
    | .onBooleans compute => do .ofStep (compute (← viewAll f Value.boolean? .boolean args))
    | .onValues compute => .ofStep (compute args)
  else .raise (.about f.name (.arity f.arity args.length))

/-! ## No argument is missing -/

/-- The pairs of neighbours are pairs. -/
theorem chain?_eq {α : Type} (related : α → α → Bool) (xs : List α) :
    chain? related xs = some (chain related xs) := by
  induction xs with
  | nil => rfl
  | cons x xs ih =>
    cases xs with
    | nil => rfl
    | cons y rest =>
      have pair : (do return related (← [x, y][0]?) (← [x, y][1]?) : Option Bool) =
          some (related x y) := rfl
      rw [chain?, neighbours, List.allM, pair, chain]
      cases related x y with
      | true => exact ih
      | false => rfl

/-- The guarded operation computes the same as the operation from `count` arguments. -/
def Operation.Completes (count : Nat) : Operation → Builtin.Operation → Prop
  | .onNumbers compute?, .onNumbers compute =>
    ∀ xs : List Float, xs.length = count → compute? xs = some (compute xs)
  | .onStrings compute?, .onStrings compute =>
    ∀ ss : List String, ss.length = count → compute? ss = some (compute ss)
  | .onBooleans compute?, .onBooleans compute =>
    ∀ bs : List Bool, bs.length = count → compute? bs = some (compute bs)
  | .onValues compute?, .onValues compute =>
    ∀ vs : List Value, vs.length = count → compute? vs = some (compute vs)
  | _, _ => False

/-- **Where the number of arguments is allowed, every argument is there.** -/
theorem operation_completes (f : Builtin) {count : Nat} (allowed : f.arity.accepts count = true) :
    (operation f).Completes count f.operation := by
  have least : f.arity.least ≤ count := by
    rw [Arity.accepts, Bool.and_eq_true, decide_eq_true_iff] at allowed
    exact allowed.1
  cases f with
  | add | multiply | stringAppend => exact fun _ _ => rfl
  | subtract | divide =>
    intro xs length
    obtain ⟨x, rest, rfl⟩ := List.exists_cons_of_length_pos (least.trans_eq length.symm)
    cases rest <;> rfl
  | equal | less | greater | atMost | atLeast | stringEqual =>
    intro xs _
    dsimp only
    rw [chain?_eq]
    rfl
  | sine | cosine | absolute | stringLength | not | isNumber | isString | isBoolean =>
    intro xs length
    obtain ⟨x, rest, rfl⟩ := List.exists_cons_of_length_pos (least.trans_eq length.symm)
    rfl
  | squareRoot =>
    intro xs length
    obtain ⟨x, rest, rfl⟩ := List.exists_cons_of_length_pos (least.trans_eq length.symm)
    unfold root? root
    dsimp only [List.headD_cons, List.getElem?_cons_zero]
    by_cases negative : x < 0
    · simp only [Option.bind_eq_bind, Option.bind_some, if_pos negative]
      rfl
    · simp only [Option.bind_eq_bind, Option.bind_some, if_neg negative]
      rfl
  | same =>
    intro vs length
    have two : vs.length = 2 := length.trans (Arity.accepts_exactly.1 allowed)
    obtain ⟨v, w, rfl⟩ := List.length_eq_two.1 two
    rfl

/-! ## Application -/

/-- As many arguments are viewed as there are. -/
theorem length_viewAll {α : Type} {view : Value → Option α} {wanted : ArgKind} {index : Nat}
    {args : List Value} {xs : List α} (h : Builtin.viewAll view wanted index args = .ok xs) :
    xs.length = args.length := by
  induction args generalizing index xs with
  | nil =>
    cases h
    rfl
  | cons v args ih =>
    rw [Builtin.viewAll] at h
    cases viewed : view v with
    | none =>
      rw [viewed] at h
      cases h
    | some x =>
      rw [viewed] at h
      cases rest : Builtin.viewAll view wanted (index + 1) args with
      | error fault =>
        rw [rest] at h
        cases h
      | ok xs =>
        rw [rest] at h
        cases h
        rw [List.length_cons, List.length_cons, ih rest]

/-- An outcome whose error reports sound values is reported. -/
theorem Attempt.ofExcept_eq {α : Type} {r : Except EvalError α}
    (sound : ∀ e, r = .error e → e.Sound) : Attempt.ofExcept r = .ofAnswer (.ofExcept r) := by
  cases r with
  | ok x => rfl
  | error e => exact raise_eq (sound e rfl)

/-- What has a value for every result goes on with it. -/
theorem map_eq_bind {ε α β : Type} (r : Except ε α) (f : α → β) :
    r.map f = r.bind fun x => .ok (f x) := by
  cases r <;> rfl

/-- What is computed from arguments that are viewed as what is wanted. -/
theorem viewAll_bind {α : Type} (f : Builtin) (view : Value → Option α) (wanted : ArgKind)
    (args : List Value) (next : List α → Attempt Value) (compute : List α → Except EvalFault Value)
    (sound : ∀ e, ((Builtin.viewAll view wanted 0 args).bind compute).mapError
      (EvalError.about f.name) = .error e → e.Sound)
    (rest : ∀ xs, xs.length = args.length → (∀ e, (compute xs).mapError
      (EvalError.about f.name) = .error e → e.Sound) →
        next xs = .ofAnswer (.ofExcept ((compute xs).mapError (EvalError.about f.name)))) :
    (viewAll f view wanted args >>= next) =
      .ofAnswer (.ofExcept (((Builtin.viewAll view wanted 0 args).bind compute).mapError
        (EvalError.about f.name))) := by
  unfold viewAll
  cases viewed : Builtin.viewAll view wanted 0 args with
  | error fault =>
    rw [viewed] at sound
    change (Attempt.raise _ >>= next) = _
    rw [Attempt.raise_eq (sound _ rfl)]
    rfl
  | ok xs =>
    rw [viewed] at sound
    exact rest xs (length_viewAll viewed) sound

/-- **A built-in function does not break off**, if the values that its error may report are
sound. -/
theorem applyBuiltin_eq (f : Builtin) {args : List Value}
    (sound : ∀ e, f.apply args = .error e → e.Sound) :
    applyBuiltin f args = .ofAnswer (.ofExcept (f.apply args)) := by
  unfold Builtin.apply at sound ⊢
  unfold applyBuiltin
  by_cases allowed : f.arity.accepts args.length = true
  · rw [if_pos allowed] at sound
    rw [if_pos allowed, if_pos allowed]
    have completes := operation_completes f allowed
    generalize operation f = guarded at completes
    generalize f.operation = plain at completes sound
    cases guarded with
    | onNumbers compute? =>
      cases plain with
      | onNumbers compute =>
        refine viewAll_bind f _ _ args _ compute sound fun xs length sound => ?_
        rw [completes xs length]
        exact Attempt.ofExcept_eq sound
      | _ => exact completes.elim
    | onStrings compute? =>
      cases plain with
      | onStrings compute =>
        rw [Builtin.Operation.run, map_eq_bind] at sound
        rw [Builtin.Operation.run, map_eq_bind]
        refine viewAll_bind f _ _ args _ _ sound fun ss length _ => ?_
        rw [completes ss length]
        rfl
      | _ => exact completes.elim
    | onBooleans compute? =>
      cases plain with
      | onBooleans compute =>
        rw [Builtin.Operation.run, map_eq_bind] at sound
        rw [Builtin.Operation.run, map_eq_bind]
        refine viewAll_bind f _ _ args _ _ sound fun bs length _ => ?_
        rw [completes bs length]
        rfl
      | _ => exact completes.elim
    | onValues compute? =>
      cases plain with
      | onValues compute =>
        dsimp only
        rw [completes args rfl]
        rfl
      | _ => exact completes.elim
  · rw [if_neg allowed] at sound
    rw [if_neg allowed, if_neg allowed]
    exact Attempt.raise_eq (sound _ rfl)

end Tyro.Guarded
