import Tyro.Proofs.Frames.Shelter
import Tyro.Proofs.Program.Printed

/-!
# Scoping is lexical

A program shares nothing but its top level. At every moment of a run, all functions that there are
were defined there, and every other frame was made for a call and lies on the top level directly
(`Course.IsLexical`). So a free name of a function means what it means at the top level, whoever has
called the function; and that the frame of a function is gone is an error that no program meets.

After the run this error is all that can come of calling one of its functions with the right number
of arguments. The top level was the only frame that was still held, and it is given up
(`Store.isLive_release`).

* `Course.Sheltered.isLexical` gathers what `Proofs/Frames/Shelter.lean` says about a moment of an
  evaluation.
* `inherited_atHome` is what this means for outcomes, so that all results of a program are at home,
  and all that is stored at any moment between forms (`Store.Upholds`).
-/

namespace Tyro

variable {t : Store} {top : FrameId}

/-! ## What was defined at the top level -/

/-- What is inside a value at home is at home. -/
theorem Value.AtHome.of_contains {frame : FrameId} {v part : Value} (inside : v.Contains part)
    (h : v.AtHome frame) : part.AtHome frame := by
  induction inside with
  | self v => exact h
  | field mem inside ih =>
    cases h with
    | struct type all => exact ih (all _ mem)

/-- The values in an outcome at home are at home. -/
theorem OutcomeAtHome.values {frame : FrameId} {r : Except EvalError Value}
    (h : OutcomeAtHome frame r) : ∀ v ∈ outcomeValues r, v.AtHome frame := by
  cases r with
  | ok v => exact List.forall_mem_singleton.2 h
  | error e => exact EvalError.AtHome.values h

/-- Without a call there are no further frames. -/
theorem Course.sheltered_start (t : Store) (top : FrameId) : Course.Sheltered t top ⟨t, []⟩ where
  now := by
    refine ⟨.refl t, fun id frame found beyond => ?_⟩
    rw [List.getElem?_eq_none beyond] at found
    cases found
  before m rest suffix := absurd (List.suffix_nil.1 suffix) nofun
  atHome := List.forall_mem_nil _

/-- **What an expression comes to is at home** if all that is stored is. -/
theorem Store.Upholds.atHome_evalAtFuel (upholds : t.Upholds top (OutcomeAtHome top)) (fuel : Nat)
    (e : Expr) : (t.evalAtFuel fuel (.top top) e).AtHome top (Value.AtHome top) := by
  obtain ⟨-, -, -, -, here⟩ :=
    Framed.evalAtFuel_computes upholds fuel top .empty e ⟨t, []⟩ (Course.sheltered_start t top) .top
  exact here

/-- Outcomes at home come from outcomes at home. -/
theorem inherited_atHome (top : FrameId) : Store.Inherited top (OutcomeAtHome top) where
  evaluated upholds h := (upholds.atHome_evalAtFuel _ _).finished? h
  builtin f := .builtin f
  number x := .number x
  struct _ _ _ mem := StructType.atHome_functions mem
  closure _ here := .closure here
  refused _ here _ _ _ := ⟨List.forall_mem_singleton.2 here, nofun⟩

/-! ## Moments of an evaluation -/

namespace Course

/-- The second course is the first, or was it at an earlier moment. -/
def Passed (c c' : Course) : Prop :=
  c' = c ∨ ∃ m rest, m :: rest <:+ c.log ∧ c' = ⟨m.store, m :: rest⟩

variable {c c' : Course}

/-- Earlier courses are sheltered too. -/
theorem Sheltered.passed (h : c.Sheltered t top) (passed : c.Passed c') : c'.Sheltered t top := by
  rcases passed with rfl | ⟨m, rest, suffix, rfl⟩
  · exact h
  · exact ⟨h.before m rest suffix, fun m' rest' earlier => h.before m' rest' (earlier.trans suffix),
      fun m' mem => h.atHome m' (suffix.subset mem)⟩

/-- Evaluating an expression or running a test leads on. -/
theorem Sheltered.perform (upholds : t.Upholds top (OutcomeAtHome top)) (h : c.Sheltered t top)
    {frame : FrameId} {locals : Bindings Value} (stands : c.store.Stands top frame locals)
    (fuel : Nat) (task : Expr ⊕ Check) :
    (c.perform fuel frame task).Sheltered t top ∧ c.Leads (c.perform fuel frame task) := by
  cases task with
  | inl e =>
    obtain ⟨c', ran, sheltered, leads, -⟩ :=
      Framed.evalAtFuel_computes upholds fuel frame locals e c h stands
    rw [Course.perform, ran]
    exact ⟨sheltered, leads⟩
  | inr test =>
    obtain ⟨c', ran, sheltered, leads, -⟩ :=
      Framed.check_computes upholds fuel frame locals test c h stands
    rw [Course.perform, ran]
    exact ⟨sheltered, leads⟩

/-- Evaluating expressions and running tests one after the other leads on. -/
theorem Sheltered.performAll (upholds : t.Upholds top (OutcomeAtHome top)) (h : c.Sheltered t top)
    {frame : FrameId} {locals : Bindings Value} (stands : c.store.Stands top frame locals)
    (fuel : Nat) (tasks : List (Expr ⊕ Check)) :
    (c.performAll fuel frame tasks).Sheltered t top ∧ c.Leads (c.performAll fuel frame tasks) := by
  induction tasks generalizing c with
  | nil => exact ⟨h, .refl c⟩
  | cons task tasks ih =>
    obtain ⟨sheltered, leads⟩ := h.perform upholds stands fuel task
    obtain ⟨sheltered', leads'⟩ := ih sheltered (stands.of_isUnder leads.store)
    exact ⟨sheltered', leads.trans leads'⟩

end Course

/-- The frame was made for a call of the function with the arguments. It lies on the top level
directly, where the function was defined; the parameters of the function are its names, bound to the
arguments; and every other name is looked up in it as at the top level. -/
structure Store.IsCallFrame (s : Store) (top : FrameId) (f : Closure) (args : List Value)
    (id : FrameId) : Prop where
  home : f.home = top
  chain : s.chain id = [id, top]
  names : ∀ name, name ∈ s.ownNames id ↔ name ∈ f.params
  slots : ∀ name, s.slot? id name =
    ((Bindings.ofList (f.params.zip args)).get? name).map fun v => .filled (.ok v)
  free : ∀ name, name ∉ f.params → s.lookup id name = s.slot? top name

/-- **Scoping is lexical** at the moment of a course that has started from the store. -/
structure Course.IsLexical (t : Store) (top : FrameId) (c : Course) : Prop where
  /-- The top level lies on no other frame. -/
  alone : c.store.chain top = [top]
  /-- What is stored there was defined there, and is what was stored at the start. -/
  stored : ∀ name r, c.store.slot? top name = some (.filled r) → OutcomeAtHome top r
  kept : ∀ name, c.store.slot? top name = t.slot? top name
  /-- All that has happened is at home. -/
  happened : ∀ m ∈ c.log, m.event.AtHome top
  /-- Each other frame is that of a call, and an expression comes to the same in it wherever the
  function has been called. -/
  calls : ∀ id, id < c.store.frames.length → id ≠ top →
    ∃ f args, HasCalled c.log f args id ∧ c.store.IsCallFrame top f args id ∧
      ∀ fuel e, (Framed.evalAtFuel fuel id e c).1 =
        t.evalAtFuel fuel ⟨.ofList (f.params.zip args), top⟩ e
  /-- Evaluating expressions and running tests in a frame leaves all frames as they are, all the
  time. -/
  leads : ∀ id, id < c.store.frames.length → ∀ fuel tasks, c.Leads (c.performAll fuel id tasks)
  /-- At the top level, expressions and tests come to what they come to in the store. -/
  answers : ∀ fuel e, (Framed.evalAtFuel fuel top e c).1 = t.evalAtFuel fuel (.top top) e
  tests : ∀ fuel test, (Framed.check fuel top test c).1 =
    .ofOption (test.run fun e => t.eval? fuel top e)

/-- The frame of a call is one at any moment. -/
theorem Frame.IsCall.isCallFrame {s : Store} {f : Closure} {args : List Value} {id : FrameId}
    {frame : Frame} (found : s.frames[id]? = some frame) (call : frame.IsCall top f args) :
    s.IsCallFrame top f args id := by
  have slots := Store.slot?_of_isCall found call
  have names (name : String) : (s.slot? id name).isSome = true ↔ name ∈ f.params := by
    rw [slots, Option.isSome_map, Bindings.isSome_get?_ofList,
      List.map_fst_zip (Nat.le_of_eq call.full.symm)]
  refine ⟨call.home, Store.chain_of_isCall found call, fun name => ?_, slots, fun name free => ?_⟩
  · rw [← names]
    unfold Store.ownNames Store.slot?
    rw [found]
    exact Bindings.get?_isSome_iff.symm
  · have absent : s.slot? id name = none := by
      rw [← Option.not_isSome_iff_eq_none, names]
      exact free
    rw [Store.lookup_of_isCall found call, absent, Option.none_or]

/-- **Scoping is lexical at every moment of an evaluation** in a store that has no frame but the top
level. -/
theorem Course.Sheltered.isLexical (upholds : t.Upholds top (OutcomeAtHome top))
    (only : ∀ id, id < t.frames.length → id = top) {c : Course} (h : c.Sheltered t top) :
    c.IsLexical t top := by
  have home := upholds.home.of_isUnder h.now.under
  have kept (name : String) : c.store.slot? top name = t.slot? top name :=
    h.now.under.slot? upholds.home.there name
  have calls (id : FrameId) (there : id < c.store.frames.length) (other : id ≠ top) :
      ∃ frame f args, c.store.frames[id]? = some frame ∧ HasCalled c.log f args id ∧
        frame.IsCall top f args := by
    have beyond : t.frames.length ≤ id := Nat.le_of_not_lt fun inside => other (only id inside)
    obtain ⟨f, args, called, call⟩ := h.now.calls id _ (List.getElem?_eq_getElem there) beyond
    exact ⟨_, f, args, List.getElem?_eq_getElem there, called, call⟩
  have answer {id : FrameId} {locals : Bindings Value} (stands : c.store.Stands top id locals)
      (fuel : Nat) (e : Expr) :
      (Framed.evalAtFuel fuel id e c).1 = t.evalAtFuel fuel ⟨locals, top⟩ e := by
    obtain ⟨c', ran, -⟩ := Framed.evalAtFuel_computes upholds fuel id locals e c h stands
    rw [ran]
  refine ⟨home.alone, fun name r filled => ?_, kept, h.atHome, fun id there other => ?_,
    fun id there fuel tasks => ?_, answer .top, fun fuel test => ?_⟩
  · rw [kept] at filled
    exact upholds.stored name r filled
  · obtain ⟨frame, f, args, found, called, call⟩ := calls id there other
    exact ⟨f, args, called, call.isCallFrame found, answer (.call found call)⟩
  · by_cases same : id = top
    · rw [same]
      exact (h.performAll upholds .top fuel tasks).2
    · obtain ⟨frame, f, args, found, called, call⟩ := calls id there same
      exact (h.performAll upholds (.call found call) fuel tasks).2
  · obtain ⟨c', ran, -⟩ := Framed.check_computes upholds fuel top .empty test c h .top
    rw [ran]
    rfl

/-! ## After the run -/

namespace Store

/-- Where the only frame is given up, no frame is live. -/
theorem isLive_release {s : Store} (only : ∀ id, id < s.frames.length → id = top) (id : FrameId) :
    (s.release top).isLive id = false := by
  rw [← Bool.not_eq_true, isLive_iff]
  rintro ⟨other, f, found, held, -⟩
  change (s.frames.modify top _)[other]? = some f at found
  rw [List.getElem?_modify] at found
  obtain ⟨before, found', same⟩ := Option.map_eq_some_iff.1 found
  obtain ⟨inside, -⟩ := List.getElem?_eq_some_iff.1 found'
  rw [if_pos (only other inside).symm] at same
  rw [← same] at held
  cases held

/-- A function whose frame is gone cannot be called: the number of arguments is checked, and that is
all. -/
theorem applyAtFuel_of_not_isLive {s : Store} {f : Closure} (gone : s.isLive f.home = false)
    (fuel : Nat) (args : List Value) (call : Expr) :
    s.applyAtFuel fuel (.closure f) args call =
      .error (.about f.name (if args.length = f.params.length then .homeless
        else .arity (.exactly f.params.length) args.length)) := by
  change (Answer.ofExcept (Eval.checkCount f.name f.params.length args) >>= fun _ =>
    if s.isLive f.home then _ else .error (.about f.name .homeless)) = _
  unfold Eval.checkCount
  by_cases full : args.length = f.params.length
  · rw [if_pos full, if_pos (Arity.accepts_exactly.2 full), gone]
    rfl
  · rw [if_neg full, if_neg (mt Arity.accepts_exactly.1 full)]
    rfl

end Store

/-! ## Programs -/

namespace Program

/-- **The top level is all that a program shares.** Between any two forms, and when the tests are
run, whatever is evaluated and whenever one looks: all functions were defined at the top level, all
other frames are those of calls and lie on the top level directly, no binding of a frame changes,
and no error is that the frame of a function is gone. All that the program results in is at home
too. But once the program has run, none of the functions in its results can be called any more. -/
theorem scoping_is_lexical (fuel : Nat) (forms : List Form) :
    (∀ i t, Store.empty.newLibrary.2.storeBefore? fuel Store.empty.newLibrary.1 forms i = some t →
      ∀ n tasks c, (Course.performAll n Store.empty.newLibrary.1 ⟨t, []⟩ tasks).Passed c →
        c.IsLexical t Store.empty.newLibrary.1) ∧
    ∀ results after, run fuel forms = some (results, after) → ∀ r ∈ results,
      (∀ outcome ∈ r.outcomes, OutcomeAtHome Store.empty.newLibrary.1 outcome) ∧
      ∀ v ∈ r.values, ∀ f, v.Contains (.closure f) → f.home = Store.empty.newLibrary.1 ∧
        ∀ n args call, after.applyAtFuel n (.closure f) args call =
          .error (.about f.name (if args.length = f.params.length then .homeless
            else .arity (.exactly f.params.length) args.length)) := by
  have inherited := inherited_atHome Store.empty.newLibrary.1
  have start := inherited.newLibrary
  have only {t : Store} {i : Nat} (moment :
      Store.empty.newLibrary.2.storeBefore? fuel Store.empty.newLibrary.1 forms i = some t) :
      ∀ id, id < t.frames.length → id = Store.empty.newLibrary.1 := by
    intro id there
    rw [Store.length_storeBefore start.home.there moment] at there
    exact Nat.lt_one_iff.1 there
  constructor
  · intro i t moment n tasks c passed
    have upholds := start.storeBefore inherited moment
    have performed := (Course.sheltered_start t _).performAll upholds .top n tasks
    exact (performed.1.passed passed).isLexical upholds (only moment)
  · intro results after h r mem
    obtain ⟨⟨results', last⟩, ran, built⟩ := Option.bind_eq_some_iff.1 h
    cases built
    have outcomes := start.run inherited ran r mem
    refine ⟨outcomes, fun v inside f part => ?_⟩
    have atHome := FormResult.forall_mem_values.2 (fun result mem => (outcomes result mem).values)
    cases (atHome v inside).of_contains part with
    | closure here =>
      refine ⟨here, ?_⟩
      have moment := (Store.run_moments ran).1
      exact Store.applyAtFuel_of_not_isLive (Store.isLive_release (only moment) _)

/-- A function with a free name, called by a function that has a parameter of this name. -/
def shadowingForms : List Form :=
  [.definition (.constant "x" (.number 1)),
    .definition (.function "free" ["y"] (.name "x")),
    .definition (.function "caller" ["x"] (.call "free" [.name "x"])),
    .expression (.call "caller" [.number 2])]

/-- The function with the free name. -/
def freeFunction : Closure := ⟨"free", ["y"], .name "x", 0⟩

/-- The function that calls it. -/
def callerFunction : Closure := ⟨"caller", ["x"], .call "free" [.name "x"], 0⟩

/-- The free name is what the constant is, not what the caller has for it, in each of the two frames
that are made. After the run, the number of arguments is all that the functions are asked for. -/
theorem free_name_is_not_found_in_caller :
    ∃ t c results after,
      Store.empty.newLibrary.2.storeBefore? 5 0 shadowingForms 3 = some t ∧
      c = Course.performAll 5 0 ⟨t, []⟩ [.inl (.call "caller" [.number 2])] ∧ c.IsLexical t 0 ∧
      HasCalled c.log callerFunction [.number 2] 1 ∧ HasCalled c.log freeFunction [.number 2] 2 ∧
      (Framed.evalAtFuel 1 1 (.name "x") c).1 = .result (.number 2) ∧
      (Framed.evalAtFuel 1 2 (.name "x") c).1 = .result (.number 1) ∧
      run 5 shadowingForms = some (results, after) ∧ .value (.number 1) ∈ results ∧
      .bound "free" (.closure freeFunction) ∈ results ∧
      after.applyAtFuel 1 (.closure freeFunction) [.number 2] (.name "f") =
        .error (.about "free" .homeless) ∧
      after.applyAtFuel 1 (.closure freeFunction) [] (.name "f") =
        .error (.about "free" (.arity (.exactly 1) 0)) := by
  obtain ⟨t, c, moment, performed, outer, inner, first, second⟩ : ∃ t c,
      Store.empty.newLibrary.2.storeBefore? 5 0 shadowingForms 3 = some t ∧
      c = Course.performAll 5 0 ⟨t, []⟩ [.inl (.call "caller" [.number 2])] ∧
      HasCalled c.log callerFunction [.number 2] 1 ∧ HasCalled c.log freeFunction [.number 2] 2 ∧
      (Framed.evalAtFuel 1 1 (.name "x") c).1 = .result (.number 2) ∧
      (Framed.evalAtFuel 1 2 (.name "x") c).1 = .result (.number 1) :=
    ⟨_, _, rfl, rfl, ⟨_, List.mem_of_getElem? (i := 5) rfl, rfl⟩,
      ⟨_, List.mem_of_getElem? (i := 3) rfl, rfl⟩, rfl, rfl⟩
  obtain ⟨results, after, ran, value, bound⟩ : ∃ results after,
      run 5 shadowingForms = some (results, after) ∧ .value (.number 1) ∈ results ∧
      .bound "free" (.closure freeFunction) ∈ results :=
    ⟨[_, _, _, _], _, rfl, List.mem_of_getElem? (i := 3) rfl, List.mem_of_getElem? (i := 1) rfl⟩
  obtain ⟨moments, outcome⟩ := scoping_is_lexical 5 shadowingForms
  obtain ⟨-, values⟩ := outcome results after ran _ bound
  obtain ⟨-, gone⟩ := values _ List.mem_cons_self _ (.self _)
  have lexical := moments 3 t moment 5 _ c (.inl performed)
  exact ⟨t, c, results, after, moment, performed, lexical, outer, inner, first, second, ran, value,
    bound, gone 1 _ _, gone 1 _ _⟩

end Program

end Tyro
