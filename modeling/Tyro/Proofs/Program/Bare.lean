import Tyro.Program.Run

/-!
# Values without their numbers

Two runs can make the same values with different numbers: those of structure types count the
structures that were defined before, and those of frames the frames that were made. `bare` takes the
numbers off a value, and leaves what a program can write and print. Comparing, viewing and rendering
values do not look at the numbers, and so a test comes to the same with bare values
(`Check.run_bare`).
-/

namespace Tyro

/-- The type without its serial number. -/
def StructType.bare (type : StructType) : StructType := { type with serial := 0 }

namespace Value

mutual

/-- The value without the serial numbers of types and the numbers of frames. -/
def bare : Value → Value
  | .string content => .string content
  | .number value => .number value
  | .boolean value => .boolean value
  | .builtin function => .builtin function
  | .closure function => .closure { function with home := 0 }
  | .struct type fields => .struct type.bare (bareAll fields)
  | .constructor type => .constructor type.bare
  | .accessor type index => .accessor type.bare index
  | .predicate type => .predicate type.bare

/-- Several values without numbers. -/
def bareAll : List Value → List Value
  | [] => []
  | v :: vs => v.bare :: bareAll vs

end

@[simp] theorem number?_bare (v : Value) : v.bare.number? = v.number? := by
  cases v <;> rfl

@[simp] theorem string?_bare (v : Value) : v.bare.string? = v.string? := by
  cases v <;> rfl

@[simp] theorem equal_bare (v w : Value) : v.bare.equal w.bare = v.equal w := by
  cases v <;> cases w <;> rfl

mutual

/-- A value is shown without numbers. -/
@[simp] theorem render_bare (v : Value) : v.bare.render = v.render := by
  cases v with
  | struct type fields =>
    rw [bare, render, render, renderAll_bareAll fields]
    rfl
  | _ => rfl

/-- Several values are shown without numbers. -/
theorem renderAll_bareAll (vs : List Value) : renderAll (bareAll vs) = renderAll vs := by
  cases vs with
  | nil => rfl
  | cons v vs => rw [bareAll, renderAll, renderAll, render_bare v, renderAll_bareAll vs]

end

end Value

/-- The fault with a bare value. -/
def EvalFault.bare : EvalFault → EvalFault
  | .notBoolean given => .notBoolean given.bare
  | .wrongKind wanted index given => .wrongKind wanted index given.bare
  | .wrongStruct wanted given => .wrongStruct wanted given.bare
  | fault => fault

/-- The error with a bare value. -/
def EvalError.bare (e : EvalError) : EvalError := ⟨e.context, e.fault.bare⟩

/-- The cause in words shows no numbers. -/
theorem EvalFault.message_bare (fault : EvalFault) : fault.bare.message = fault.message := by
  cases fault with
  | notBoolean v =>
    exact congrArg ("question result is not true or false: " ++ ·) (Value.render_bare v)
  | wrongKind wanted index v =>
    exact congrArg ("expects " ++ wanted.phrase ++ " as " ++ ordinal (index + 1) ++
      " argument, given " ++ ·) (Value.render_bare v)
  | wrongStruct wanted v =>
    exact congrArg ("expects a " ++ wanted ++ ", given " ++ ·) (Value.render_bare v)
  | _ => rfl

/-- A message shows no numbers. -/
@[simp] theorem EvalError.message_bare (e : EvalError) : e.bare.message = e.message := by
  unfold bare message
  rw [EvalFault.message_bare]

/-- The value or error without numbers. -/
def bareOutcome : Except EvalError Value → Except EvalError Value
  | .ok v => .ok v.bare
  | .error e => .error e.bare

/-- What a test comes to, without numbers. -/
def CheckResult.bare : CheckResult → CheckResult
  | .success => .success
  | .differs actual expected => .differs actual.bare expected.bare
  | .notWithin actual expected delta => .notWithin actual.bare expected.bare delta
  | .actualFailed keyword error expected => .actualFailed keyword error.bare expected.bare
  | .expectedFailed error => .expectedFailed error.bare
  | .noError actual => .noError actual.bare
  | .wrongError expected error => .wrongError expected error.bare

namespace Check

/-- Bare values are compared as the values are. -/
theorem compareEqual_bare (actual expected : Value) :
    compareEqual actual.bare expected.bare = (compareEqual actual expected).bare := by
  unfold compareEqual
  rw [Value.equal_bare]
  split <;> rfl

/-- Bare values are compared with a tolerance as the values are. -/
theorem compareWithin_bare (actual expected : Value) (delta : Float) :
    compareWithin actual.bare expected.bare delta =
      (compareWithin actual expected delta).bare := by
  unfold compareWithin
  simp only [Value.equal_bare, Value.number?_bare]
  split <;> split <;> rfl

/-- A bare error is compared as the error is. -/
theorem compareError_bare (e : EvalError) (expected : Option String) :
    compareError e.bare expected = (compareError e expected).bare := by
  cases expected with
  | none => rfl
  | some message =>
    unfold compareError
    rw [EvalError.message_bare]
    dsimp only
    split <;> rfl

/-- The tolerance that a bare value is. -/
theorem toleranceOf_bare (outcome : Except EvalError Value) :
    toleranceOf (bareOutcome outcome) = (toleranceOf outcome).mapError EvalError.bare := by
  cases outcome with
  | error e => rfl
  | ok v =>
    unfold toleranceOf bareOutcome
    dsimp only
    rw [Value.number?_bare]
    cases v.number? <;> rfl

/-- The message that a bare value is. -/
theorem messageOf_bare (outcome : Except EvalError Value) :
    messageOf (bareOutcome outcome) = (messageOf outcome).mapError EvalError.bare := by
  cases outcome with
  | error e => rfl
  | ok v =>
    unfold messageOf bareOutcome
    dsimp only
    rw [Value.string?_bare]
    cases v.string? <;> rfl

variable {eval : Expr → Option (Except EvalError Value)}

/-- The message to expect is the same of bare values. -/
theorem expectedMessage_bare {message : Option Expr} {outcome : Except EvalError (Option String)}
    (h : expectedMessage eval message = some outcome) :
    expectedMessage (fun e => (eval e).map bareOutcome) message =
      some (outcome.mapError EvalError.bare) := by
  cases message with
  | none =>
    cases h
    rfl
  | some m =>
    obtain ⟨x, evaluated, built⟩ := Option.bind_eq_some_iff.1 h
    cases built
    unfold expectedMessage
    dsimp only
    rw [evaluated]
    change some ((messageOf (bareOutcome x)).map some) = _
    rw [messageOf_bare]
    cases messageOf x <;> rfl

/-- A chain of two steps gets to what it is mapped to if each of its steps does. -/
theorem some_of_bind_map {α α' β β' : Type} {m : α → α'} {n : β → β'} {x : Option α}
    {x' : Option α'} {f : α → Option β} {g : α' → Option β'}
    (first : ∀ a, x = some a → x' = some (m a))
    (rest : ∀ a b, f a = some b → g (m a) = some (n b)) {b : β} (h : (x >>= f) = some b) :
    (x' >>= g) = some (n b) := by
  obtain ⟨a, now, later⟩ := Option.bind_eq_some_iff.1 h
  exact Option.bind_eq_some_iff.2 ⟨m a, first a now, rest a b later⟩

/-- Where the expected side has a value, the actual side comes to the same with bare values if the
comparison does. -/
theorem actual_bare {x : Option (Except EvalError Value)} (keyword : Keyword) (expected : Value)
    {compare compare' : Value → CheckResult} (compared : ∀ a, compare' a.bare = (compare a).bare)
    {r : CheckResult}
    (h : (x >>= fun a =>
      match a with
      | .error e => some (.actualFailed keyword e expected)
      | .ok a => some (compare a)) = some r) :
    (x.map bareOutcome >>= fun a =>
      match a with
      | .error e => some (.actualFailed keyword e expected.bare)
      | .ok a => some (compare' a)) = some r.bare := by
  refine some_of_bind_map (fun a same => congrArg (Option.map bareOutcome) same) (fun a r h => ?_) h
  cases a with
  | error e =>
    cases h
    rfl
  | ok a =>
    cases h
    exact congrArg some (compared a)

/-- **A test comes to the same with bare values.** -/
theorem run_bare {c : Check} {r : CheckResult} (h : c.run eval = some r) :
    c.run (fun e => (eval e).map bareOutcome) = some r.bare := by
  have part (e : Expr) (x : Except EvalError Value) (evaluated : eval e = some x) :
      (eval e).map bareOutcome = some (bareOutcome x) := by
    rw [evaluated]
    rfl
  cases c with
  | expect actual expected =>
    refine some_of_bind_map (part expected) (fun x r h => ?_) h
    cases x with
    | error e =>
      cases h
      rfl
    | ok x => exact actual_bare _ x (fun a => compareEqual_bare a x) h
  | within actual expected delta =>
    refine some_of_bind_map (part expected) (fun x r h => ?_) h
    cases x with
    | error e =>
      cases h
      rfl
    | ok x =>
      refine some_of_bind_map (part delta) (fun d r h => ?_) h
      dsimp only
      rw [toleranceOf_bare]
      cases tolerance : toleranceOf d with
      | error e =>
        rw [tolerance] at h
        cases h
        rfl
      | ok delta =>
        rw [tolerance] at h
        exact actual_bare _ x (fun a => compareWithin_bare a x delta) h
  | error actual message =>
    refine some_of_bind_map (fun _ => expectedMessage_bare) (fun x r h => ?_) h
    cases x with
    | error e =>
      cases h
      rfl
    | ok expected =>
      refine some_of_bind_map (part actual) (fun a r h => ?_) h
      cases a with
      | ok a =>
        cases h
        rfl
      | error e =>
        cases h
        exact congrArg some (compareError_bare e expected)

end Check

end Tyro
