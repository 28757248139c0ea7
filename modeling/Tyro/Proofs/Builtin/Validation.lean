import Mathlib.Data.List.Chain
import Tyro.Builtin.Apply

/-!
# How built-in functions check their arguments

Every built-in function checks in one order: the number of its arguments, then their kinds from left
to right, and then what it computes from.

* `ArgKind.Fits` says which values are of a kind and `wanted?` which kind a function takes.
  `Misfit kind args i v` is the first argument that is not of the kind, and `exists_misfit` says
  that there is a first if there is any.
* `apply_of_not_accepts`, `apply_misfit` and `exists_run` are the three outcomes of the checks, in
  their order. The operations of `Apply` are gone through by what they compute from, and each
  function is one of them (`wanted?_operation`).
* `divisors` and `Compares` say by the arguments when a division is refused and what a comparison
  asks of two neighbours.
-/

namespace Tyro

/-- The value is of the kind. -/
def ArgKind.Fits : ArgKind → Value → Prop
  | .number, v => ∃ x, v = .number x
  | .nonNegative, v => ∃ x, v = .number x ∧ ¬ x < 0
  | .string, v => ∃ s, v = .string s
  | .boolean, v => ∃ b, v = .boolean b

namespace Builtin

/-! ## Kinds of arguments -/

/-- The kind of argument that the function takes, unless it takes any. -/
def wanted? : Builtin → Option ArgKind
  | .add | .subtract | .multiply | .divide => some .number
  | .equal | .less | .greater | .atMost | .atLeast => some .number
  | .sine | .cosine | .squareRoot | .absolute => some .number
  | .stringAppend | .stringLength | .stringEqual => some .string
  | .not => some .boolean
  | .same | .isNumber | .isString | .isBoolean => none

/-- All arguments are of the kind that the function takes. -/
def Fitting (f : Builtin) (args : List Value) : Prop :=
  ∀ kind, f.wanted? = some kind → ∀ v ∈ args, kind.Fits v

/-- The first argument that is not of the kind. -/
structure Misfit (kind : ArgKind) (args : List Value) (i : Nat) (v : Value) : Prop where
  place : args[i]? = some v
  other : ¬ kind.Fits v
  before : ∀ j w, j < i → args[j]? = some w → kind.Fits w

/-- Behind an argument of the kind, the first other one is that among the rest. -/
theorem Misfit.tail {kind : ArgKind} {args : List Value} {i : Nat} {v w : Value}
    (misfit : Misfit kind (w :: args) (i + 1) v) : Misfit kind args i v where
  place := by simpa using misfit.place
  other := misfit.other
  before j u lt found := misfit.before (j + 1) u (Nat.succ_lt_succ lt) (by simpa using found)

/-- If some argument is not of the kind, one of them is the first. -/
theorem exists_misfit {kind : ArgKind} {args : List Value} (misfits : ¬ ∀ v ∈ args, kind.Fits v) :
    ∃ i v, Misfit kind args i v := by
  induction args with
  | nil => exact absurd (List.forall_mem_nil _) misfits
  | cons w args ih =>
    by_cases fits : kind.Fits w
    · have rest : ¬ ∀ v ∈ args, kind.Fits v :=
        fun all => misfits (List.forall_mem_cons.2 ⟨fits, all⟩)
      obtain ⟨i, v, misfit⟩ := ih rest
      refine ⟨i + 1, v, by simpa using misfit.place, misfit.other, ?_⟩
      rintro (_ | j) u lt found
      · obtain rfl : w = u := Option.some.inj found
        exact fits
      · exact misfit.before j u (Nat.lt_of_succ_lt_succ lt) (by simpa using found)
    · exact ⟨0, w, rfl, fits, fun j _ lt => absurd lt (Nat.not_lt_zero j)⟩

section View

variable {α : Type} {view : Value → Option α} {make : α → Value} {kind : ArgKind}

/-- Arguments of the kind are viewed as what they are made of. -/
theorem viewAll_map (view : Value → Option α) (make : α → Value)
    (viewed : ∀ x, view (make x) = some x) (kind : ArgKind) (index : Nat) (xs : List α) :
    viewAll view kind index (xs.map make) = .ok xs := by
  induction xs generalizing index with
  | nil => rfl
  | cons x xs ih =>
    rw [List.map_cons, viewAll, viewed]
    dsimp only
    rw [ih]
    rfl

/-- Values of a kind are all made of something. -/
theorem exists_map_of_forall {args : List Value} (made : ∀ v ∈ args, ∃ x, v = make x) :
    ∃ xs : List α, args = xs.map make := by
  induction args with
  | nil => exact ⟨[], rfl⟩
  | cons v args ih =>
    obtain ⟨⟨x, rfl⟩, rest⟩ := List.forall_mem_cons.1 made
    obtain ⟨xs, rfl⟩ := ih rest
    exact ⟨x :: xs, rfl⟩

/-- **The first argument of another kind is reported**, whatever comes behind it. -/
theorem viewAll_misfit (fits : ∀ v, kind.Fits v ↔ (view v).isSome) {args : List Value} {i : Nat}
    {v : Value} (misfit : Misfit kind args i v) (index : Nat) :
    viewAll view kind index args = .error (.wrongKind kind (index + i) v) := by
  induction args generalizing index i with
  | nil => exact absurd misfit.place nofun
  | cons w args ih =>
    rw [viewAll]
    cases i with
    | zero =>
      obtain rfl : w = v := Option.some.inj misfit.place
      have unseen : view w = none := by
        simpa [fits] using misfit.other
      rw [unseen]
      rfl
    | succ i =>
      have seen := (fits w).1 (misfit.before 0 w (Nat.succ_pos i) rfl)
      obtain ⟨x, viewed⟩ := Option.isSome_iff_exists.1 seen
      rw [viewed]
      dsimp only
      rw [ih misfit.tail (index + 1), Nat.add_right_comm]
      rfl

end View

/-- A number is what is viewed as one. -/
theorem fits_number (v : Value) : ArgKind.number.Fits v ↔ v.number?.isSome := by
  cases v <;> simp [ArgKind.Fits, Value.number?]

/-- A string is what is viewed as one. -/
theorem fits_string (v : Value) : ArgKind.string.Fits v ↔ v.string?.isSome := by
  cases v <;> simp [ArgKind.Fits, Value.string?]

/-- A truth value is what is viewed as one. -/
theorem fits_boolean (v : Value) : ArgKind.boolean.Fits v ↔ v.boolean?.isSome := by
  cases v <;> simp [ArgKind.Fits, Value.boolean?]

/-! ## Operations -/

/-- The kind of argument that the operation is for, unless it is for any. -/
def Operation.wanted? : Operation → Option ArgKind
  | .onNumbers _ => some .number
  | .onStrings _ => some .string
  | .onBooleans _ => some .boolean
  | .onValues _ => none

/-- Each function computes from what it takes. -/
theorem wanted?_operation (f : Builtin) : f.operation.wanted? = f.wanted? := by
  cases f <;> rfl

/-- An operation reports the first argument of another kind. -/
theorem Operation.run_misfit {op : Operation} {kind : ArgKind} (wanted : op.wanted? = some kind)
    {args : List Value} {i : Nat} {v : Value} (misfit : Misfit kind args i v) :
    op.run args = .error (.wrongKind kind i v) := by
  cases op with
  | onNumbers compute =>
    cases wanted
    rw [run, viewAll_misfit fits_number misfit, Nat.zero_add]
    rfl
  | onStrings compute =>
    cases wanted
    rw [run, viewAll_misfit fits_string misfit, Nat.zero_add]
    rfl
  | onBooleans compute =>
    cases wanted
    rw [run, viewAll_misfit fits_boolean misfit, Nat.zero_add]
    rfl
  | onValues compute => cases wanted

/-- An operation on numbers computes from numbers. -/
theorem Operation.run_numbers (compute : List Float → Except EvalFault Value) (xs : List Float) :
    (Operation.onNumbers compute).run (xs.map .number) = compute xs := by
  rw [run, viewAll_map Value.number? Value.number fun _ => rfl]
  rfl

/-- An operation on strings computes from strings. -/
theorem Operation.run_strings (compute : List String → Value) (ss : List String) :
    (Operation.onStrings compute).run (ss.map .string) = .ok (compute ss) := by
  rw [run, viewAll_map Value.string? Value.string fun _ => rfl]
  rfl

/-- An operation on truth values computes from truth values. -/
theorem Operation.run_booleans (compute : List Bool → Value) (bs : List Bool) :
    (Operation.onBooleans compute).run (bs.map .boolean) = .ok (compute bs) := by
  rw [run, viewAll_map Value.boolean? Value.boolean fun _ => rfl]
  rfl

/-! ## The order of the checks -/

variable {f : Builtin} {args : List Value}

/-- A number of arguments that is not allowed is reported, whatever the arguments are. -/
theorem apply_of_not_accepts (refused : f.arity.accepts args.length = false) :
    f.apply args = .error (.about f.name (.arity f.arity args.length)) := by
  rw [apply, refused]
  rfl

/-- With an allowed number of arguments, the operation decides. -/
theorem apply_of_accepts (allowed : f.arity.accepts args.length = true) :
    f.apply args = (f.operation.run args).mapError (EvalError.about f.name) := by
  rw [apply, if_pos allowed]

/-- With an allowed number of arguments, the first one of another kind is reported. -/
theorem apply_misfit (allowed : f.arity.accepts args.length = true) {kind : ArgKind}
    (wanted : f.wanted? = some kind) {i : Nat} {v : Value} (misfit : Misfit kind args i v) :
    f.apply args = .error (.about f.name (.wrongKind kind i v)) := by
  rw [apply_of_accepts allowed, Operation.run_misfit ((wanted?_operation f).trans wanted) misfit]
  rfl

/-- What is reported against a name begins with the name. -/
theorem message_about (name : String) (fault : EvalFault) :
    (EvalError.about name fault).message = name ++ ": " ++ fault.message := by
  simp only [EvalError.message, EvalError.about, Expr.render]

/-- The message names the function, the place of the argument from one on, and its rendering. -/
theorem message_wrongKind (name : String) (kind : ArgKind) (i : Nat) (v : Value) :
    (EvalError.about name (.wrongKind kind i v)).message =
      name ++ ": expects " ++ kind.phrase ++ " as " ++ ordinal (i + 1) ++ " argument, given " ++
        v.render := by
  have cause : (EvalFault.wrongKind kind i v).message =
      "expects " ++ kind.phrase ++ " as " ++ ordinal (i + 1) ++ " argument, given " ++ v.render :=
    rfl
  have begins : ": expects " = ": " ++ "expects " := by decide
  rw [message_about, cause, begins]
  simp only [String.append_assoc]

/-- Fitting arguments of a function of numbers are numbers. -/
theorem Fitting.numbers (fitting : f.Fitting args) (wanted : f.wanted? = some .number) :
    ∃ xs : List Float, args = xs.map .number :=
  exists_map_of_forall (fitting .number wanted)

/-- Fitting arguments of a function of strings are strings. -/
theorem Fitting.strings (fitting : f.Fitting args) (wanted : f.wanted? = some .string) :
    ∃ ss : List String, args = ss.map .string :=
  exists_map_of_forall (fitting .string wanted)

/-- Fitting arguments of a function of truth values are truth values. -/
theorem Fitting.booleans (fitting : f.Fitting args) (wanted : f.wanted? = some .boolean) :
    ∃ bs : List Bool, args = bs.map .boolean :=
  exists_map_of_forall (fitting .boolean wanted)

/-! ## Division and square roots -/

/-- What is divided by: the only argument, or any after the first. -/
def divisors : List Value → List Value
  | [v] => [v]
  | vs => vs.tail

/-- One of the values is the number zero. -/
def HasZero (vs : List Value) : Prop := ∃ x, Value.number x ∈ vs ∧ (x == 0) = true

/-- Division by several numbers is refused for a zero, and otherwise has a result. -/
theorem divideAll_of_zero (x : Float) (ys : List Float) :
    ((∃ y ∈ ys, (y == 0) = true) → divideAll x ys = .error .divisionByZero) ∧
      ((¬ ∃ y ∈ ys, (y == 0) = true) → ∃ z, divideAll x ys = .ok z) := by
  induction ys generalizing x with
  | nil => exact ⟨fun ⟨_, mem, _⟩ => absurd mem List.not_mem_nil, fun _ => ⟨x, rfl⟩⟩
  | cons y ys ih =>
    simp only [List.exists_mem_cons_iff]
    rw [divideAll]
    by_cases zero : (y == 0) = true
    · rw [if_pos zero]
      exact ⟨fun _ => rfl, fun nonzero => absurd (.inl zero) nonzero⟩
    · rw [if_neg zero, or_iff_right zero]
      exact ih (x / y)

/-- The quotient of numbers is refused if a divisor is zero, and otherwise has a value. -/
theorem quotient_of_zero {xs : List Float} (nonempty : xs ≠ []) :
    (HasZero (divisors (xs.map .number)) → quotient xs = .error .divisionByZero) ∧
      (¬ HasZero (divisors (xs.map .number)) → ∃ z, quotient xs = .ok z) := by
  have zero (ys : List Float) : HasZero (ys.map .number) ↔ ∃ y ∈ ys, (y == 0) = true := by
    simp [HasZero]
  match xs, nonempty with
  | [x], _ =>
    have single : divisors ([x].map .number) = [x].map .number := rfl
    rw [single, zero]
    exact divideAll_of_zero 1 [x]
  | x :: y :: rest, _ =>
    have behind : divisors ((x :: y :: rest).map .number) = (y :: rest).map .number := rfl
    rw [behind, zero]
    exact divideAll_of_zero x (y :: rest)

/-! ## Comparisons -/

/-- What a comparison asks of two values. -/
def Compares : Builtin → Value → Value → Prop
  | .equal, .number x, .number y => (x == y) = true
  | .less, .number x, .number y => x < y
  | .greater, .number x, .number y => x > y
  | .atMost, .number x, .number y => x ≤ y
  | .atLeast, .number x, .number y => x ≥ y
  | .stringEqual, .string s, .string t => s = t
  | _, _, _ => False

/-- The functions that compare neighbours. -/
def comparisons : List Builtin := [.equal, .less, .greater, .atMost, .atLeast, .stringEqual]

/-- A relation holds between all neighbours. -/
theorem chain_iff {α : Type} (related : α → α → Bool) (xs : List α) :
    chain related xs = true ↔ xs.IsChain fun x y => related x y = true := by
  induction xs with
  | nil => exact iff_of_true rfl .nil
  | cons x xs ih =>
    cases xs with
    | nil => exact iff_of_true rfl (.singleton x)
    | cons y rest => rw [chain, Bool.and_eq_true, ih, List.isChain_cons_cons]

/-- A comparison of numbers holds between all neighbours. -/
theorem run_comparison {related : Float → Float → Bool}
    (compares : f.operation = comparison related)
    (same : ∀ x y, related x y = true ↔ f.Compares (.number x) (.number y)) (xs : List Float) :
    ∃ b, f.operation.run (xs.map .number) = .ok (.boolean b) ∧
      (b = true ↔ (xs.map Value.number).IsChain f.Compares) := by
  refine ⟨chain related xs, ?_, ?_⟩
  · rw [compares, comparison, Operation.run_numbers]
  · rw [chain_iff, List.isChain_map]
    exact List.IsChain.iff same

/-- **Comparisons compare neighbours.** -/
theorem apply_comparison (compares : f ∈ comparisons)
    (allowed : f.arity.accepts args.length = true) (fitting : f.Fitting args) :
    ∃ b, f.apply args = .ok (.boolean b) ∧ (b = true ↔ args.IsChain f.Compares) := by
  have ran : ∃ b, f.operation.run args = .ok (.boolean b) ∧
      (b = true ↔ args.IsChain f.Compares) := by
    simp only [comparisons, List.mem_cons, List.not_mem_nil, or_false] at compares
    rcases compares with rfl | rfl | rfl | rfl | rfl | rfl
    case inr.inr.inr.inr.inr =>
      obtain ⟨ss, rfl⟩ := fitting.strings rfl
      refine ⟨chain (fun s t => decide (s = t)) ss,
        Operation.run_strings (fun ss => .boolean (chain (fun s t => decide (s = t)) ss)) ss, ?_⟩
      rw [chain_iff, List.isChain_map]
      exact List.IsChain.iff fun s t => decide_eq_true_iff
    all_goals
      obtain ⟨xs, rfl⟩ := fitting.numbers rfl
      exact run_comparison rfl (fun x y => by simp [Compares]) xs
  obtain ⟨b, result, holds⟩ := ran
  refine ⟨b, ?_, holds⟩
  rw [apply_of_accepts allowed, result]
  rfl

/-- Two values compare as the comparison asks of them. -/
theorem apply_pair_iff (compares : f ∈ comparisons) {v w : Value} (fitting : f.Fitting [v, w]) :
    f.apply [v, w] = .ok (.boolean true) ↔ f.Compares v w := by
  have two : ∀ f ∈ comparisons, f.arity.accepts 2 = true := by decide
  have allowed : f.arity.accepts [v, w].length = true := two f compares
  obtain ⟨b, result, holds⟩ := apply_comparison compares allowed fitting
  rw [result, ← List.isChain_pair (R := f.Compares), ← holds]
  simp

/-- A comparison is the conjunction of the comparisons of neighbours. -/
theorem isChain_compares_iff (compares : f ∈ comparisons) (fitting : f.Fitting args) :
    args.IsChain f.Compares ↔ args.IsChain fun v w => f.apply [v, w] = .ok (.boolean true) := by
  refine List.IsChain.iff_of_mem_imp fun v w mem mem' => ?_
  have pair : f.Fitting [v, w] := by
    intro kind wanted u here
    have all := fitting kind wanted
    simp only [List.mem_cons, List.not_mem_nil, or_false] at here
    rcases here with rfl | rfl
    · exact all u mem
    · exact all u mem'
  exact (apply_pair_iff compares pair).symm

/-! ## All functions -/

/-- What the other functions compute from fitting arguments is a value. -/
theorem exists_run (fitting : f.Fitting args) (notDivide : f ≠ .divide)
    (notRoot : f ≠ .squareRoot) : ∃ v, f.operation.run args = .ok v := by
  cases f with
  | divide => exact absurd rfl notDivide
  | squareRoot => exact absurd rfl notRoot
  | add | subtract | multiply | equal | less | greater | atMost | atLeast | sine | cosine
  | absolute =>
    obtain ⟨xs, rfl⟩ := fitting.numbers rfl
    exact ⟨_, Operation.run_numbers _ xs⟩
  | stringAppend | stringLength | stringEqual =>
    obtain ⟨ss, rfl⟩ := fitting.strings rfl
    exact ⟨_, Operation.run_strings _ ss⟩
  | not =>
    obtain ⟨bs, rfl⟩ := fitting.booleans rfl
    exact ⟨_, Operation.run_booleans _ bs⟩
  | same | isNumber | isString | isBoolean => exact ⟨_, rfl⟩

/-- Division is refused exactly for a divisor that is zero. -/
theorem apply_divide (allowed : Builtin.divide.arity.accepts args.length = true)
    (fitting : Builtin.divide.Fitting args) :
    (HasZero (divisors args) →
        Builtin.divide.apply args = .error (.about Builtin.divide.name .divisionByZero)) ∧
      (¬ HasZero (divisors args) → ∃ v, Builtin.divide.apply args = .ok v) := by
  obtain ⟨xs, rfl⟩ := fitting.numbers rfl
  have nonempty : xs ≠ [] := by
    rintro rfl
    cases allowed
  have ran : Builtin.divide.operation.run (xs.map .number) = (quotient xs).map .number :=
    Operation.run_numbers _ xs
  obtain ⟨zero, nonzero⟩ := quotient_of_zero nonempty
  rw [apply_of_accepts allowed, ran]
  constructor
  · intro h
    rw [zero h]
    rfl
  · intro h
    obtain ⟨z, result⟩ := nonzero h
    rw [result]
    exact ⟨.number z, rfl⟩

/-- The square root is refused exactly for a number that is negative. -/
theorem apply_squareRoot (x : Float) :
    (x < 0 → Builtin.squareRoot.apply [.number x] =
        .error (.about Builtin.squareRoot.name (.wrongKind .nonNegative 0 (.number x)))) ∧
      (¬ x < 0 → ∃ v, Builtin.squareRoot.apply [.number x] = .ok v) := by
  have ran : Builtin.squareRoot.operation.run [.number x] =
      if x < 0 then .error (.wrongKind .nonNegative 0 (.number x)) else .ok (.number x.sqrt) := rfl
  rw [apply_of_accepts rfl, ran]
  constructor
  · intro negative
    rw [if_pos negative]
    rfl
  · intro negative
    rw [if_neg negative]
    exact ⟨_, rfl⟩

/-- **Built-in functions check in one order.** A number of arguments that is not allowed is
reported, whatever they are. Otherwise the first argument of another kind than the function takes is
reported with its place and its rendering, whatever comes behind it. Otherwise there is a value,
except that division refuses a divisor that is zero and the square root a negative number; and
comparisons of many are those of all neighbours. -/
theorem apply_checks_in_order (f : Builtin) (args : List Value) :
    (f.arity.accepts args.length = false →
      f.apply args = .error (.about f.name (.arity f.arity args.length))) ∧
    (f.arity.accepts args.length = true →
      (¬ f.Fitting args → ∃ kind i v, f.wanted? = some kind ∧ Misfit kind args i v ∧
        f.apply args = .error (.about f.name (.wrongKind kind i v)) ∧
        (EvalError.about f.name (.wrongKind kind i v)).message =
          f.name ++ ": expects " ++ kind.phrase ++ " as " ++ ordinal (i + 1) ++
            " argument, given " ++ v.render) ∧
      (f.Fitting args →
        (f = .divide ∧ HasZero (divisors args) →
          f.apply args = .error (.about f.name .divisionByZero) ∧
            (EvalError.about f.name .divisionByZero).message = f.name ++ ": division by zero") ∧
        (∀ x, f = .squareRoot ∧ args = [.number x] ∧ x < 0 →
          f.apply args = .error (.about f.name (.wrongKind .nonNegative 0 (.number x)))) ∧
        (¬ (f = .divide ∧ HasZero (divisors args)) →
          (∀ x, ¬ (f = .squareRoot ∧ args = [.number x] ∧ x < 0)) → ∃ v, f.apply args = .ok v) ∧
        (f ∈ comparisons → ∃ b, f.apply args = .ok (.boolean b) ∧
          (b = true ↔ args.IsChain fun v w => f.apply [v, w] = .ok (.boolean true)) ∧
          (b = true ↔ args.IsChain f.Compares)))) := by
  refine ⟨apply_of_not_accepts, fun allowed => ⟨?_, fun fitting => ⟨?_, ?_, ?_, ?_⟩⟩⟩
  · intro other
    obtain ⟨kind, wanted, misfits⟩ : ∃ kind, f.wanted? = some kind ∧ ¬ ∀ v ∈ args, kind.Fits v := by
      simpa only [Fitting, not_forall, exists_prop] using other
    obtain ⟨i, v, misfit⟩ := exists_misfit misfits
    exact ⟨kind, i, v, wanted, misfit, apply_misfit allowed wanted misfit,
      message_wrongKind f.name kind i v⟩
  · rintro ⟨rfl, zero⟩
    exact ⟨(apply_divide allowed fitting).1 zero, message_about _ .divisionByZero⟩
  · rintro x ⟨rfl, rfl, negative⟩
    exact (apply_squareRoot x).1 negative
  · intro noZero notNegative
    by_cases divide : f = .divide
    · subst divide
      exact (apply_divide allowed fitting).2 fun zero => noZero ⟨rfl, zero⟩
    by_cases root : f = .squareRoot
    · subst root
      obtain ⟨xs, rfl⟩ := fitting.numbers rfl
      rw [List.length_map] at allowed
      obtain ⟨x, rfl⟩ := List.length_eq_one_iff.1 (Arity.accepts_exactly.1 allowed)
      exact (apply_squareRoot x).2 fun negative => notNegative x ⟨rfl, rfl, negative⟩
    obtain ⟨v, result⟩ := exists_run fitting divide root
    refine ⟨v, ?_⟩
    rw [apply_of_accepts allowed, result]
    rfl
  · intro compares
    obtain ⟨b, result, holds⟩ := apply_comparison compares allowed fitting
    exact ⟨b, result, holds.trans (isChain_compares_iff compares fitting), holds⟩

end Builtin

end Tyro
