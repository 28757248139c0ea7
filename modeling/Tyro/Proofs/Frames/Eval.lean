import Tyro.Program.Run

/-!
# Evaluation in frames

`Store.evalAtFuel` hands the arguments of a call on in its scope and makes no frame for them.
`Framed.evalAtFuel` does make it: a call extends the frame in which the function was defined by the
arguments, has the body evaluated in the new frame, and gives the frame up. Names are looked up in
the frame of the evaluation and in those that it lies on. All else is as in `Store.evalAtFuel`.

So evaluation changes the store here. A `Course` is the store with a log of all that has happened:
calls with the function, its arguments and its frame, and answers of expressions with the frame in
which they were evaluated, each with the store as it was at the time (`Moment`). What has happened
stays in store and log when an evaluation fails or its fuel is used up. Tests evaluate their parts
in the same way (`Framed.check`).
-/

namespace Tyro

/-! ## Courses -/

/-- What happens while expressions are evaluated. -/
inductive Event where
  /-- A function is called with the arguments, and the frame has been made for the call. -/
  | calls (function : Closure) (args : List Value) (frame : FrameId)
  /-- An expression has its answer in the frame. -/
  | answers (frame : FrameId) (expr : Expr) (answer : Answer Value)

/-- Something that has happened, and the store as it was then. -/
structure Moment where
  store : Store
  event : Event

/-- The store, and what has happened so far, with the last moment first. -/
structure Course where
  store : Store
  log : List Moment

/-- Logs that something has happened. -/
def Course.note (c : Course) (event : Event) : Course :=
  { c with log := ⟨c.store, event⟩ :: c.log }

/-- What is computed from a course, and the course afterwards. -/
def Framed (α : Type) : Type := Course → Answer α × Course

namespace Framed

variable {α β : Type}

/-- Goes on with the result, if there is one. The course stays in any case. -/
def bind (m : Framed α) (next : α → Framed β) : Framed β := fun c =>
  match m c with
  | (.result x, c) => next x c
  | (.error e, c) => (.error e, c)
  | (.outOfFuel, c) => (.outOfFuel, c)

instance : Monad Framed where
  pure x := fun c => (.result x, c)
  bind := bind

/-- An answer that leaves the course as it is. -/
def ofAnswer (a : Answer α) : Framed α := fun c => (a, c)

/-! ## Parts -/

/-- The values of several expressions. -/
def all (eval : Expr → Framed Value) : List Expr → Framed (List Value)
  | [] => pure []
  | e :: es => do return (← eval e) :: (← all eval es)

/-- The truth value of a question that belongs to a form. -/
def question (eval : Expr → Framed Value) (form q : Expr) : Framed Bool := do
  let v ← eval q
  match v.boolean? with
  | some b => return b
  | none => ofAnswer (.error ⟨form, .notBoolean v⟩)

/-- The answer of the first clause whose question is true. -/
def clauses (eval : Expr → Framed Value) (form : Expr) : Clauses → Framed Value
  | .none => ofAnswer (.error ⟨form, .noAnswer⟩)
  | .otherwise answer => eval answer
  | .clause q answer rest => do
    if ← question eval form q then eval answer else clauses eval form rest

/-- The value of a logical form. -/
def operands (eval : Expr → Framed Value) (form : Expr) (connective : Connective) :
    List Expr → Framed Value
  | [] => pure (.boolean !connective.settledBy)
  | e :: es => do
    let b ← question eval form e
    if b = connective.settledBy then return .boolean b else operands eval form connective es

/-! ## Frames -/

/-- What a name stands for in a frame and in those that it lies on. -/
def lookup (frame : FrameId) (name : String) : Framed Value := fun c =>
  (.ofExcept ((Scope.top frame).lookup c.store name), c)

/-- Evaluates the body of a function in a frame that is made for the arguments, and gives the frame
up. -/
def enter (eval : FrameId → Expr → Framed Value) (f : Closure) (args : List Value) :
    Framed Value := fun c =>
  if c.store.isLive f.home then
    let (frame, s) := c.store.extend f.home (f.params.zip args)
    let (answer, c) := eval frame f.body (Course.note ⟨s, c.log⟩ (.calls f args frame))
    (answer, { c with store := c.store.release frame })
  else (.error (.about f.name .homeless), c)

/-- Applies a function to arguments. Other functions than those that a program defined need no frame
and no evaluator. -/
def apply (eval : FrameId → Expr → Framed Value) (function : Value) (args : List Value)
    (call : Expr) : Framed Value :=
  match function with
  | .closure f => do
    ofAnswer (.ofExcept (Eval.checkCount f.name f.params.length args))
    enter eval f args
  | f => ofAnswer (Eval.apply .empty (fun _ _ => .outOfFuel) f args call)

/-- Logs the answer of an expression. -/
def answered (frame : FrameId) (e : Expr) (m : Framed Value) : Framed Value := fun c =>
  let (answer, c) := m c
  (answer, c.note (.answers frame e answer))

/-! ## The evaluator -/

/-- Evaluates an expression in a frame, no deeper than the fuel allows. -/
def evalAtFuel : Nat → FrameId → Expr → Framed Value
  | 0, _, _ => ofAnswer .outOfFuel
  | fuel + 1, frame, expr => answered frame expr <|
    match expr with
    | .string content => pure (.string content)
    | .number value => pure (.number value)
    | .boolean value => pure (.boolean value)
    | .name word => lookup frame word
    | .template _ => ofAnswer (.error ⟨expr, .template⟩)
    | .call function args => do
      let f ← lookup frame function
      let vs ← all (fun e => evalAtFuel fuel frame e) args
      apply (fun inner body => evalAtFuel fuel inner body) f vs expr
    | .ifElse q yes no => do
      if ← question (fun e => evalAtFuel fuel frame e) expr q then evalAtFuel fuel frame yes
      else evalAtFuel fuel frame no
    | .cond cs => clauses (fun e => evalAtFuel fuel frame e) expr cs
    | .logical connective es => operands (fun e => evalAtFuel fuel frame e) expr connective es

/-! ## Tests -/

/-- Goes on with an error as with a result. -/
def caught (m : Framed α) : Framed (Except EvalError α) := fun c =>
  match m c with
  | (.result x, c) => (.result (.ok x), c)
  | (.error e, c) => (.result (.error e), c)
  | (.outOfFuel, c) => (.outOfFuel, c)

/-- The message that a test expects, if it names one. -/
def expectedMessage (eval : Expr → Framed (Except EvalError Value)) :
    Option Expr → Framed (Except EvalError (Option String))
  | none => pure (.ok none)
  | some message => do return (Check.messageOf (← eval message)).map some

/-- Runs a test, with the given evaluator. -/
def runCheck (eval : Expr → Framed (Except EvalError Value)) (c : Check) : Framed CheckResult := do
  match c with
  | .expect actual expected =>
    match ← eval expected with
    | .error e => return .expectedFailed e
    | .ok expected =>
      match ← eval actual with
      | .error e => return .actualFailed c.keyword e expected
      | .ok actual => return Check.compareEqual actual expected
  | .within actual expected delta =>
    match ← eval expected with
    | .error e => return .expectedFailed e
    | .ok expected =>
      match Check.toleranceOf (← eval delta) with
      | .error e => return .expectedFailed e
      | .ok delta =>
        match ← eval actual with
        | .error e => return .actualFailed c.keyword e expected
        | .ok actual => return Check.compareWithin actual expected delta
  | .error actual message =>
    match ← expectedMessage eval message with
    | .error e => return .expectedFailed e
    | .ok expected =>
      match ← eval actual with
      | .ok actual => return .noError actual
      | .error e => return Check.compareError e expected

/-- Runs a test in a frame. -/
def check (fuel : Nat) (frame : FrameId) (c : Check) : Framed CheckResult :=
  runCheck (fun e => caught (evalAtFuel fuel frame e)) c

end Framed

/-- Evaluates an expression or runs a test in a frame, whatever it comes to. -/
def Course.perform (fuel : Nat) (frame : FrameId) (c : Course) : Expr ⊕ Check → Course
  | .inl e => (Framed.evalAtFuel fuel frame e c).2
  | .inr test => (Framed.check fuel frame test c).2

/-- Evaluates expressions and runs tests in a frame, one after the other. -/
def Course.performAll (fuel : Nat) (frame : FrameId) (c : Course) (tasks : List (Expr ⊕ Check)) :
    Course :=
  tasks.foldl (fun c task => c.perform fuel frame task) c

end Tyro
