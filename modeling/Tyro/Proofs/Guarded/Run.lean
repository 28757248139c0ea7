import Tyro.Proofs.Guarded.Eval
import Tyro.Proofs.Guarded.Read

/-!
# The pipeline with its guards

`Guarded.output` is the way of a text to what it prints, with everything written out that can break
it off: the cuts of the scanner, the slices of the reader, the look-ups of the evaluator, and three
steps of a run. A name is filled that was never reserved; an error is reported with a value that
cannot be written down; or a result has such a value.

`Guarded.pipeline_does_not_break_off` says that a text prints the same with the guards as without
them, so that no text breaks the pipeline off. A name that is filled is one that the first pass has
reserved (`Guarded.run_eq`), and the values of a run are sound at every moment
(`Store.Sound.storeBefore`).
-/

namespace Tyro.Guarded

namespace Attempt

variable {α β : Type}

/-- A result, or that the fuel ran out. -/
def ofOption : Option α → Attempt α
  | some x => .result x
  | none => .outOfFuel

/-- An attempt whose error does not end what comes behind it. -/
def caught : Attempt α → Attempt (Except EvalError α)
  | .result x => .result (.ok x)
  | .error e => .result (.error e)
  | .outOfFuel => .outOfFuel
  | .broken => .broken

/-- Runs that are chained are runs. -/
theorem ofOption_bind {o : Option α} {g : Attempt α} {next : α → Option β}
    {next' : α → Attempt β} (first : g = ofOption o)
    (rest : ∀ x, o = some x → next' x = ofOption (next x)) :
    (g >>= next') = ofOption (o >>= next) := by
  subst first
  cases o with
  | some x => exact rest x rfl
  | none => rfl

/-- An answer whose error is caught is what is finished. -/
theorem caught_ofAnswer (a : Answer α) : (ofAnswer a).caught = ofOption a.finished? := by
  cases a <;> rfl

/-- An error that reports sound values can be reported and caught. -/
theorem caught_raise {e : EvalError} (sound : e.Sound) :
    (raise e : Attempt α).caught = .result (.error e) := by
  rw [raise_eq sound]
  rfl

end Attempt

/-- The value of an expression at the top level of a frame, or its error. -/
def eval? (s : Store) (fuel : Nat) (frame : FrameId) (e : Expr) :
    Attempt (Except EvalError Value) :=
  (evalAtFuel s fuel (.top frame) e).caught

/-! ## Definitions -/

/-- Fills a reserved name of a frame, which must have the name. -/
def fill (s : Store) (frame : FrameId) (name : String) (result : Except EvalError Value) :
    Attempt (Except BindingError Store) :=
  match s.slot? frame name with
  | some .reserved => .result (.ok (s.setSlot frame name (.filled result)))
  | some (.filled _) => .result (.error (.alreadyDefined name))
  | none => .broken

/-- Fills several names. All of them are tried, and the first refusal is reported. -/
def fillAll (s : Store) (frame : FrameId) :
    List (String × Value) → Attempt (Option BindingError × Store)
  | [] => .result (none, s)
  | (name, v) :: rest => do
    match ← fill s frame name (.ok v) with
    | .ok s => fillAll s frame rest
    | .error e => return (some e, (← fillAll s frame rest).2)

/-- Evaluates a definition and fills its names. -/
def runDefinition (s : Store) (fuel : Nat) (frame : FrameId) :
    Definition → Attempt (FormResult × Store)
  | .constant name body => do
    let result ← eval? s fuel frame body
    match ← fill s frame name result, result with
    | .error e, _ => return (.unbound e, s)
    | .ok s, .error e => return (.unbound (.value e), s)
    | .ok s, .ok v => return (.bound name v, s)
  | .function name params body => do
    let v := Value.closure ⟨name, params, body, frame⟩
    match ← fill s frame name (.ok v) with
    | .error e => return (.unbound e, s)
    | .ok s => return (.bound name v, s)
  | .struct name fields => do
    let (type, s) := s.newStruct name fields
    match ← fillAll s frame type.functions with
    | (some e, s) => return (.unbound e, s)
    | (none, s) => return (.structBound name, s)

/-! ## Tests -/

/-- The tolerance of a test, which has to be a number. -/
def toleranceOf : Except EvalError Value → Attempt (Except EvalError Float)
  | .error e => .result (.error e)
  | .ok v =>
    match v.number? with
    | some x => .result (.ok x)
    | none => (Attempt.raise (.about Keyword.checkWithin.text (.wrongKind .number 2 v))).caught

/-- The message that a test expects, which has to be a string. -/
def messageOf : Except EvalError Value → Attempt (Except EvalError String)
  | .error e => .result (.error e)
  | .ok v =>
    match v.string? with
    | some s => .result (.ok s)
    | none => (Attempt.raise (.about Keyword.checkError.text (.wrongKind .string 1 v))).caught

/-- The message that a test expects, if it names one. -/
def expectedMessage (eval : Expr → Attempt (Except EvalError Value)) :
    Option Expr → Attempt (Except EvalError (Option String))
  | none => .result (.ok none)
  | some message => do return (← messageOf (← eval message)).map some

/-- Runs a test, with the given evaluator. -/
def runCheck (eval : Expr → Attempt (Except EvalError Value)) (c : Check) :
    Attempt CheckResult := do
  match c with
  | .expect actual expected =>
    match ← eval expected with
    | .error e => return .expectedFailed e
    | .ok expected =>
      match ← eval actual with
      | .error e => return .actualFailed c.keyword e expected
      | .ok actual => return Check.compareEqual actual expected
  | .within actual expected delta =>
    match ← eval expected with
    | .error e => return .expectedFailed e
    | .ok expected =>
      match ← toleranceOf (← eval delta) with
      | .error e => return .expectedFailed e
      | .ok delta =>
        match ← eval actual with
        | .error e => return .actualFailed c.keyword e expected
        | .ok actual => return Check.compareWithin actual expected delta
  | .error actual message =>
    match ← expectedMessage eval message with
    | .error e => return .expectedFailed e
    | .ok expected =>
      match ← eval actual with
      | .ok actual => return .noError actual
      | .error e => return Check.compareError e expected

/-! ## Programs -/

/-- The second pass, for one form. -/
def runForm (s : Store) (fuel : Nat) (frame : FrameId) : Form → Attempt (Store.Pending × Store)
  | .definition d => do
    let (result, s) ← runDefinition s fuel frame d
    return (.done result, s)
  | .expression e => do
    match ← eval? s fuel frame e with
    | .ok v => return (.done (.value v), s)
    | .error e => return (.done (.failed e), s)
  | .check c => .result (.waiting c, s)
  | .malformed e => .result (.done (.malformed e), s)

/-- The second pass: forms in order, the store of each handed on to the next. -/
def runForms (s : Store) (fuel : Nat) (frame : FrameId) :
    List Form → Attempt (List Store.Pending × Store)
  | [] => .result ([], s)
  | form :: forms => do
    let (pending, s) ← runForm s fuel frame form
    let (rest, s) ← runForms s fuel frame forms
    return (pending :: rest, s)

/-- The third pass: the tests that wait are run in the store that the second pass left. -/
def settle (s : Store) (fuel : Nat) (frame : FrameId) :
    List Store.Pending → Attempt (List FormResult)
  | [] => .result []
  | .done result :: rest => do return result :: (← settle s fuel frame rest)
  | .waiting c :: rest => do
    let result ← runCheck (fun e => eval? s fuel frame e) c
    return .check result :: (← settle s fuel frame rest)

/-- Runs a program with a frame as its top level. -/
def run (s : Store) (fuel : Nat) (frame : FrameId) (forms : List Form) :
    Attempt (List FormResult × Store) := do
  let s := s.reserveAll frame (forms.flatMap Form.boundNames)
  let (pending, s) ← runForms s fuel frame forms
  return (← settle s fuel frame pending, s)

/-! ## Program texts -/

/-- Runs a list of forms with the library as their top level. -/
def runProgram (fuel : Nat) (forms : List Form) : Attempt (List FormResult × Store) := do
  let (frame, s) := Store.empty.newLibrary
  let (results, s) ← run s fuel frame forms
  return (results, s.release frame)

/-- Runs a program text. -/
def runText (fuel : Nat) (source : String) : Attempt (List LocatedResult) := do
  let tokens ← .ofStep (scan? source)
  let data ← .ofStep (readAll? tokens)
  let (results, _) ← runProgram fuel (data.map fun d => Form.ofSexp d.sexp)
  return (results.zip (data.map (·.span))).map fun (result, span) => ⟨result, span⟩

/-- The line for a form. The values in it are written down. -/
def text? (r : FormResult) : Option String := do
  let _ ← Value.renderAll? r.values
  return r.text

/-- The lines for several results, each with its end. -/
def lines? : List FormResult → Option (List String)
  | [] => some []
  | r :: rs => do return ((← text? r) ++ "\n") :: (← lines? rs)

/-- The text for several results. A program without forms still prints an empty line. -/
def print? (results : List FormResult) : Option String := do
  if results.isEmpty then return "\n" else return String.join (← lines? results)

/-- What a program text prints. -/
def output (fuel : Nat) (source : String) : Attempt String := do
  .ofStep (print? ((← runText fuel source).map (·.result)))

/-! ## Nothing breaks off -/

section Runs

variable {s : Store} {frame : FrameId} {fuel : Nat}

/-- At a sound top level, evaluation does not break off. -/
theorem eval?_eq (sound : s.Sound frame) (fuel : Nat) (e : Expr) :
    eval? s fuel frame e = .ofOption (s.eval? fuel frame e) := by
  unfold eval? Store.eval? Scope.top
  rw [evalAtFuel_eq sound fuel (Store.soundArgs_empty frame), Attempt.caught_ofAnswer]

/-- Filling a name that the frame has does not break off. -/
theorem fill_eq {name : String} (has : (s.slot? frame name).isSome = true)
    (result : Except EvalError Value) :
    fill s frame name result = .result (s.fill frame name result) := by
  unfold fill Store.fill
  cases found : s.slot? frame name with
  | none =>
    rw [found] at has
    cases has
  | some slot => cases slot <;> rfl

/-- Filling names that the frame has does not break off: it has them all the time. -/
theorem fillAll_eq (there : frame < s.frames.length) {entries : List (String × Value)}
    (has : ∀ entry ∈ entries, (s.slot? frame entry.1).isSome = true) :
    fillAll s frame entries = .result (s.fillAll frame entries) := by
  induction entries generalizing s with
  | nil => rfl
  | cons entry entries ih =>
    obtain ⟨name, v⟩ := entry
    obtain ⟨first, others⟩ := List.forall_mem_cons.1 has
    rw [fillAll, Store.fillAll, fill_eq first, Attempt.result_bind]
    cases filled : s.fill frame name (.ok v) with
    | ok after =>
      have there' : frame < after.frames.length := by rwa [Store.length_fill filled]
      exact ih there' fun entry mem => Store.isSome_slot?_fill there filled (others entry mem)
    | error e =>
      dsimp only
      rw [ih there others]
      rfl

/-- A definition whose names are reserved does not break off. -/
theorem runDefinition_eq (sound : s.Sound frame) (fuel : Nat) {d : Definition}
    (has : ∀ name ∈ d.boundNames, (s.slot? frame name).isSome = true) :
    runDefinition s fuel frame d = .ofOption (s.runDefinition fuel frame d) := by
  cases d with
  | constant name body =>
    refine Attempt.ofOption_bind (eval?_eq sound fuel body) fun result _ => ?_
    rw [fill_eq (has name List.mem_cons_self), Attempt.result_bind]
    cases s.fill frame name result with
    | error e => rfl
    | ok after => cases result <;> rfl
  | function name params body =>
    unfold runDefinition Store.runDefinition
    dsimp only
    rw [fill_eq (has name List.mem_cons_self), Attempt.result_bind]
    cases s.fill frame name (.ok (.closure ⟨name, params, body, frame⟩)) <;> rfl
  | struct name fields =>
    have there : frame < (s.newStruct name fields).2.frames.length := sound.home.there
    have filled := fillAll_eq there fun entry mem =>
      Store.isSome_slot?_newStruct has entry.1 (List.mem_map_of_mem mem)
    unfold runDefinition Store.runDefinition
    dsimp only [Store.newStruct] at filled ⊢
    rw [filled, Attempt.result_bind]
    generalize Store.fillAll _ frame _ = outcome
    obtain ⟨refused, after⟩ := outcome
    cases refused <;> rfl

/-- The values in an outcome are sound. -/
abbrev SoundOutcome (r : Except EvalError Value) : Prop := ∀ v ∈ outcomeValues r, v.Sound

/-- A tolerance that is refused is sound. -/
theorem toleranceOf_eq {r : Except EvalError Value} (sound : SoundOutcome r) :
    toleranceOf r = .result (Check.toleranceOf r) := by
  cases r with
  | error e => rfl
  | ok v =>
    unfold toleranceOf Check.toleranceOf
    dsimp only
    cases v.number? with
    | some x => rfl
    | none => exact Attempt.caught_raise (List.forall_mem_singleton.2 (sound v List.mem_cons_self))

/-- A message that is refused is sound. -/
theorem messageOf_eq {r : Except EvalError Value} (sound : SoundOutcome r) :
    messageOf r = .result (Check.messageOf r) := by
  cases r with
  | error e => rfl
  | ok v =>
    unfold messageOf Check.messageOf
    dsimp only
    cases v.string? with
    | some text => rfl
    | none => exact Attempt.caught_raise (List.forall_mem_singleton.2 (sound v List.mem_cons_self))

/-- A test whose parts do not break off, and come to sound values, does not break off. -/
theorem runCheck_eq {eval : Expr → Option (Except EvalError Value)}
    {eval' : Expr → Attempt (Except EvalError Value)} (same : ∀ e, eval' e = .ofOption (eval e))
    (sound : ∀ e r, eval e = some r → SoundOutcome r) (c : Check) :
    runCheck eval' c = .ofOption (c.run eval) := by
  cases c with
  | expect actual expected =>
    refine Attempt.ofOption_bind (same expected) fun wanted _ => ?_
    cases wanted with
    | error e => rfl
    | ok wanted =>
      refine Attempt.ofOption_bind (same actual) fun given _ => ?_
      cases given <;> rfl
  | within actual expected delta =>
    refine Attempt.ofOption_bind (same expected) fun wanted _ => ?_
    cases wanted with
    | error e => rfl
    | ok wanted =>
      refine Attempt.ofOption_bind (same delta) fun tolerance evaluated => ?_
      rw [toleranceOf_eq (sound delta tolerance evaluated), Attempt.result_bind]
      cases Check.toleranceOf tolerance with
      | error e => rfl
      | ok tolerance =>
        refine Attempt.ofOption_bind (same actual) fun given _ => ?_
        cases given <;> rfl
  | error actual message =>
    have expected :
        expectedMessage eval' message = .ofOption (Check.expectedMessage eval message) := by
      cases message with
      | none => rfl
      | some m =>
        refine Attempt.ofOption_bind (same m) fun r evaluated => ?_
        rw [messageOf_eq (sound m r evaluated), Attempt.result_bind]
        rfl
    refine Attempt.ofOption_bind expected fun wanted _ => ?_
    cases wanted with
    | error e => rfl
    | ok wanted =>
      refine Attempt.ofOption_bind (same actual) fun given _ => ?_
      cases given <;> rfl

/-- **One form** whose names are reserved does not break off. -/
theorem runForm_eq (sound : s.Sound frame) (fuel : Nat) {form : Form}
    (has : ∀ name ∈ form.boundNames, (s.slot? frame name).isSome = true) :
    runForm s fuel frame form = .ofOption (s.runForm fuel frame form) := by
  cases form with
  | definition d => exact Attempt.ofOption_bind (runDefinition_eq sound fuel has) fun _ _ => rfl
  | expression e =>
    refine Attempt.ofOption_bind (eval?_eq sound fuel e) fun r _ => ?_
    cases r <;> rfl
  | check c => rfl
  | malformed e => rfl

/-- Forms whose names are reserved do not break off. -/
theorem runForms_eq (sound : s.Sound frame) (fuel : Nat) {forms : List Form}
    (has : ∀ name ∈ forms.flatMap Form.boundNames, (s.slot? frame name).isSome = true) :
    runForms s fuel frame forms = .ofOption (s.runForms fuel frame forms) := by
  induction forms generalizing s with
  | nil => rfl
  | cons form forms ih =>
    have here : ∀ name ∈ form.boundNames, (s.slot? frame name).isSome = true :=
      fun name mem => has name (List.mem_append_left _ mem)
    refine Attempt.ofOption_bind (runForm_eq sound fuel here) fun (first, middle) now => ?_
    obtain ⟨-, others⟩ := Store.isSome_slot?_cons sound.home.there has now
    exact Attempt.ofOption_bind (ih (sound.runForm now) others) fun _ _ => rfl

/-- Tests do not break off. -/
theorem settle_eq (sound : s.Sound frame) (fuel : Nat) (pendings : List Store.Pending) :
    settle s fuel frame pendings = .ofOption (s.settle fuel frame pendings) := by
  induction pendings with
  | nil => rfl
  | cons pending pendings ih =>
    cases pending with
    | done r => exact Attempt.ofOption_bind ih fun _ _ => rfl
    | waiting c =>
      have ran := runCheck_eq (fun e => eval?_eq sound fuel e)
        (fun e r evaluated => sound.values_of_eval? evaluated) c
      exact Attempt.ofOption_bind ran fun _ _ => Attempt.ofOption_bind ih fun _ _ => rfl

/-- **A program does not break off** whose top level is sound: the first pass has reserved all names
that the second fills. -/
theorem run_eq (sound : s.Sound frame) (fuel : Nat) (forms : List Form) :
    run s fuel frame forms = .ofOption (s.run fuel frame forms) := by
  have passed := runForms_eq (sound.reserveAll (forms.flatMap Form.boundNames)) fuel
    fun name mem => Store.isSome_slot?_reserveAll sound.home.there mem
  refine Attempt.ofOption_bind passed fun (pendings, last) ran => ?_
  have lastSound := (sound.reserveAll _).runForms ran
  exact Attempt.ofOption_bind (settle_eq lastSound fuel pendings) fun _ _ => rfl

end Runs

/-! ## Texts -/

/-- The line of a result with sound values can be printed. -/
theorem text?_eq {r : FormResult} (sound : ∀ v ∈ r.values, v.Sound) : text? r = some r.text := by
  rw [text?, Value.renderAll?_eq fun v mem => (sound v mem).render?_eq]
  rfl

/-- The lines of results with sound values can be printed. -/
theorem lines?_eq {results : List FormResult} (sound : ∀ r ∈ results, ∀ v ∈ r.values, v.Sound) :
    lines? results = some (results.map fun r => r.text ++ "\n") := by
  induction results with
  | nil => rfl
  | cons r results ih =>
    obtain ⟨first, others⟩ := List.forall_mem_cons.1 sound
    rw [lines?, text?_eq first, ih others]
    rfl

/-- Results with sound values can be printed. -/
theorem print?_eq {results : List FormResult} (sound : ∀ r ∈ results, ∀ v ∈ r.values, v.Sound) :
    print? results = some (FormResult.print results) := by
  unfold print? FormResult.print
  split
  · rfl
  · rw [lines?_eq sound]
    rfl

/-- A text does not break off while it is scanned, read and run. -/
theorem runText_eq (fuel : Nat) (source : String) :
    runText fuel source = .ofOption (Program.runText fuel source) := by
  have scanned : Scanned (Token.scan source) := fun _ mem => Token.isToken_of_mem_scan mem
  have ran (forms : List Form) : runProgram fuel forms = .ofOption (Program.run fuel forms) :=
    Attempt.ofOption_bind (run_eq (Store.sound_newLibrary .empty) fuel forms) fun _ _ => rfl
  unfold runText
  rw [scan?_eq, Attempt.ofStep, Attempt.result_bind, readAll?_eq scanned, Attempt.ofStep,
    Attempt.result_bind]
  exact Attempt.ofOption_bind (ran _) fun _ _ => rfl

/-- The values in the results of a text are sound. -/
theorem sound_of_runText {fuel : Nat} {source : String} {located : List LocatedResult}
    (h : Program.runText fuel source = some located) :
    ∀ r ∈ located.map (·.result), ∀ v ∈ r.values, v.Sound := by
  obtain ⟨⟨results, last⟩, ran, built⟩ := Option.bind_eq_some_iff.1 h
  obtain ⟨⟨results', after⟩, ran', given⟩ := Option.bind_eq_some_iff.1 ran
  cases given
  cases built
  intro r mem
  obtain ⟨item, inside, rfl⟩ := List.mem_map.1 mem
  obtain ⟨⟨result, span⟩, zipped, rfl⟩ := List.mem_map.1 inside
  exact (Store.sound_newLibrary .empty).run ran' result (List.of_mem_zip zipped).1

/-- **No text breaks the pipeline off.** With the guards it prints what it prints without them, for
every amount of fuel. For a string token has a quote at both ends; and at every moment of the run,
all names that the program binds have a slot at the top level, and all values that the program can
get hold of are sound: each accessor is of a field that its type has, and each structure has all
fields of its type. -/
theorem pipeline_does_not_break_off (fuel : Nat) (source : String) :
    output fuel source = .ofOption (Program.output fuel source) ∧
    (∀ t ∈ Token.scan source, t.kind = .string → ∃ content, t.text = quotedText content) ∧
    ∀ i before, Store.empty.newLibrary.2.storeBefore? fuel Store.empty.newLibrary.1
        (Form.ofText source) i = some before →
      (∀ name ∈ (Form.ofText source).flatMap Form.boundNames,
        (before.slot? Store.empty.newLibrary.1 name).isSome = true) ∧
      ∀ v, before.Obtains Store.empty.newLibrary.1 v → v.Sound := by
  have sound := Store.sound_newLibrary .empty
  refine ⟨?_, fun t mem string => ?_,
    fun i before moment => ⟨fun name bound => ?_, fun v got => ?_⟩⟩
  · refine Attempt.ofOption_bind (runText_eq fuel source) fun located ran => ?_
    rw [print?_eq (sound_of_runText ran)]
    rfl
  · have token := Token.isToken_of_mem_scan mem
    rw [string] at token
    obtain ⟨content, text, -⟩ := token.string_inv
    refine ⟨String.ofList content, String.toList_inj.1 ?_⟩
    simp [text, quotedText]
  · exact Store.isSome_slot?_storeBefore sound.home.there moment bound
  · exact ((sound.storeBefore moment).sameSound_of_obtains got).2.2

/-- A structure with a string in it, and the string read out of it again. -/
def fieldSource : String := "(define-struct ball (x)) (ball-x (make-ball \"a\"))"

/-- The accessor that `fieldSource` defines, in the first library that is made. -/
def fieldAccessor : Value := .accessor ⟨1, "ball", ["x"]⟩ 0

/-- A field of a structure is read and printed, guards and all. The program has a string token, and
gets hold of an accessor that is sound. -/
theorem field_is_printed :
    output 5 fieldSource = .result "Defined structure ball.\n\"a\"\n" ∧
    (∃ t ∈ Token.scan fieldSource, t.kind = .string ∧ ∃ content, t.text = quotedText content) ∧
    ∃ before, Store.empty.newLibrary.2.storeBefore? 5 0 (Form.ofText fieldSource) 1 = some before ∧
      "ball-x" ∈ (Form.ofText fieldSource).flatMap Form.boundNames ∧
      (before.slot? 0 "ball-x").isSome = true ∧
      before.Obtains 0 fieldAccessor ∧ fieldAccessor.Sound := by
  have read : Sexp.ofText fieldSource =
      [⟨.list [.name "define-struct", .name "ball", .list [.name "x"]], ⟨0, 24⟩⟩,
        ⟨.list [.name "ball-x", .list [.name "make-ball", .string "a"]], ⟨25, 49⟩⟩] := by
    decide +kernel
  have parsed : Form.ofText fieldSource = [.definition (.struct "ball" ["x"]),
      .expression (.call "ball-x" [.call "make-ball" [.string "a"]])] := by
    rw [Form.ofText, read]
    rfl
  have word : (Sexp.ofText "ball-x").map (·.sexp) = [.name "ball-x"] := by decide +kernel
  have name : Form.ofText "ball-x" = [.expression (.name "ball-x")] := Form.ofText_of_read word
  have printed : Program.output 5 fieldSource = some "Defined structure ball.\n\"a\"\n" := by
    rw [Program.output, Program.runText, read]
    rfl
  have token : ∃ t ∈ Token.scan fieldSource, t.kind = .string := by
    have string : ((Token.scan fieldSource).any fun t => t.kind = .string) = true := by
      decide +kernel
    simpa using string
  obtain ⟨before, moment, evaluated⟩ : ∃ before,
      Store.empty.newLibrary.2.storeBefore? 5 0 (Form.ofText fieldSource) 1 = some before ∧
        before.evalAtFuel 1 (.top 0) (.name "ball-x") = .result fieldAccessor := by
    rw [parsed]
    exact ⟨_, rfl, rfl⟩
  have bound : "ball-x" ∈ (Form.ofText fieldSource).flatMap Form.boundNames := by
    rw [parsed]
    decide
  have got : before.Obtains 0 fieldAccessor :=
    .intro name (fun _ _ absent => by cases absent) evaluated
  obtain ⟨t, mem, string⟩ := token
  obtain ⟨same, quoted, moments⟩ := pipeline_does_not_break_off 5 fieldSource
  obtain ⟨slots, sound⟩ := moments 1 before moment
  rw [printed] at same
  exact ⟨same, ⟨t, mem, string, quoted t mem string⟩, before, moment, bound, slots _ bound, got,
    sound _ got⟩

end Tyro.Guarded
