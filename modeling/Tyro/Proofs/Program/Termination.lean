import Mathlib.Order.WellFoundedSet
import Tyro.Proofs.Eval.Ends
import Tyro.Proofs.Program.Definitions
import Tyro.Proofs.Program.Reached
import Tyro.Proofs.Prompt.Aligned
import Tyro.Proofs.Value.Expr

/-!
# Only recursion goes on forever

A definition refers to another one if its body mentions the name of that one (`RefersTo`). If no
definition refers to itself in this way, not even through others, and no function calls one of its
own parameters, then the program gets to its end (`NonRecursive.exists_runText`).

Functions are values, so that a call can evaluate a body whose name the caller never mentions: a
constant may stand for a function, and functions travel in arguments and in the fields of
structures. But a function calls nothing except what a name stands for that its body mentions and
that is no parameter. Such a name is bound to a value whose functions the name leads to along
references. This is the invariant `Traced` of the frame. By it, every call leads to a function that
comes later in an order without infinite descent (`NonRecursive.induction`), whatever functions are
among the arguments; and what an expression comes to has only functions inside to which the names in
it lead, which is what the next definition needs for the invariant.

The condition on parameters cannot be dropped: `applyAtFuel_self` is about a function that calls its
parameter, applied to itself.
-/

namespace Tyro

open Answer Filter Relation

/-! ## References -/

/-- The body of the definition mentions the name, and not as a parameter. -/
inductive Definition.Mentions (word : String) : Definition → Prop
  | constant (name : String) {body : Expr} (inside : body.Mentions word) :
    Mentions word (.constant name body)
  | function (name : String) {params : List String} {body : Expr} (inside : body.Mentions word)
    (free : word ∉ params) : Mentions word (.function name params body)

/-- A constant mentions what its body does. -/
@[simp] theorem Definition.mentions_constant {word name : String} {body : Expr} :
    (Definition.constant name body).Mentions word ↔ body.Mentions word :=
  ⟨fun | .constant _ inside => inside, .constant name⟩

/-- A function mentions what its body does, but for its parameters. -/
@[simp] theorem Definition.mentions_function {word name : String} {params : List String}
    {body : Expr} : (Definition.function name params body).Mentions word ↔
      body.Mentions word ∧ word ∉ params :=
  ⟨fun | .function _ inside free => ⟨inside, free⟩, fun h => .function name h.1 h.2⟩

/-- A structure mentions nothing. -/
@[simp] theorem Definition.not_mentions_struct {word name : String} {fields : List String} :
    ¬ (Definition.struct name fields).Mentions word := nofun

namespace Program

variable {forms : List Form}

/-- The program has a definition of the name as a constant or a function. -/
inductive Defines (forms : List Form) (name : String) : Prop
  | constant {body : Expr} (mem : .definition (.constant name body) ∈ forms)
  | function {params : List String} {body : Expr}
    (mem : .definition (.function name params body) ∈ forms)

/-- A definition of the first name mentions the second, which is defined as well. -/
def RefersTo (forms : List Form) (name other : String) : Prop :=
  Defines forms other ∧ ∃ d, .definition d ∈ forms ∧ d.name = name ∧ d.Mentions other

/-- No constant or function refers to itself, not even through others, and no function calls one of
its parameters. -/
structure NonRecursive (forms : List Form) : Prop where
  acyclic : ∀ name, ¬ TransGen (RefersTo forms) name name
  firstOrder : ∀ name params body, .definition (.function name params body) ∈ forms →
    ∀ param ∈ params, ¬ body.Calls param

/-- The names that a program defines are finitely many. -/
theorem finite_defines (forms : List Form) : {name | Defines forms name}.Finite := by
  refine (forms.flatMap Form.boundNames).finite_toSet.subset ?_
  rintro name (mem | mem)
  · exact List.mem_flatMap.2 ⟨_, mem, List.mem_singleton_self name⟩
  · exact List.mem_flatMap.2 ⟨_, mem, List.mem_singleton_self name⟩

/-- What holds of a name if it holds of all names to which it leads, holds of every defined name. -/
theorem NonRecursive.induction (h : NonRecursive forms) {motive : String → Prop}
    (step : ∀ name, (∀ other, TransGen (RefersTo forms) name other → motive other) → motive name)
    {name : String} (defined : Defines forms name) : motive name := by
  let later (a b : String) : Prop := TransGen (RefersTo forms) b a
  have order : IsStrictOrder String later :=
    { irrefl := h.acyclic, trans := fun _ _ _ first second => second.trans first }
  have founded : {name | Defines forms name}.WellFoundedOn later :=
    (finite_defines forms).wellFoundedOn
  refine founded.induction defined fun name _ ih => ?_
  refine step name fun other path => ?_
  obtain ⟨_, _, last⟩ := TransGen.tail'_iff.1 path
  exact ih other last.1 path

/-- The names lead to no others. -/
def ClosedUnder (forms : List Form) (D : String → Prop) : Prop :=
  ∀ {name other}, D name → RefersTo forms name other → D other

/-- What leads to no others by one reference leads to none by several. -/
theorem ClosedUnder.of_reflTransGen {D : String → Prop} (closed : ClosedUnder forms D)
    {name other : String} (here : D name) (path : ReflTransGen (RefersTo forms) name other) :
    D other := by
  induction path with
  | refl => exact here
  | tail _ step ih => exact closed ih step

end Program

open Program

/-! ## Functions inside values -/

variable {forms : List Form} {D : String → Prop}

/-- All functions inside the value that are no functions of the language are defined by the program
under names that satisfy the condition. -/
def Value.Draws (forms : List Form) (D : String → Prop) (v : Value) : Prop :=
  ∀ f, v.Contains (.closure f) →
    .definition (.function f.name f.params f.body) ∈ forms ∧ D f.name

/-- Evaluation makes no functions. -/
theorem Value.hereditary_draws (forms : List Form) (D : String → Prop) :
    Hereditary (Draws forms D) where
  string := by rintro content f ⟨⟩
  number := by rintro x f ⟨⟩
  boolean := by rintro b f ⟨⟩
  fields all v mem f inside := all f (.field mem inside)
  struct := by
    rintro type vs - - all f (_ | ⟨mem, inside⟩)
    exact all _ mem f inside

/-- There are no functions that a program defines inside the functions of a structure type. -/
theorem Value.draws_functions {type : StructType} {name : String} {v : Value}
    (h : (name, v) ∈ type.functions) : v.Draws forms D := by
  obtain ⟨-, rfl | ⟨i, rfl⟩ | rfl⟩ := type.mem_functions h <;> rintro f ⟨⟩

namespace Store

variable {s t : Store} {frame : FrameId} {fuel : Nat}

/-- A home frame in which the functions inside the value of each name are ones that the name leads
to along references. -/
structure Traced (s : Store) (frame : FrameId) (forms : List Form) : Prop where
  home : s.IsHome frame
  values : ∀ name v, s.slot? frame name = some (.filled (.ok v)) →
    v.Draws forms fun other => Defines forms name ∧ ReflTransGen (RefersTo forms) name other

/-- The functions inside the value of a name are among all names to which the name leads. -/
theorem Traced.draws (traced : s.Traced frame forms) (closed : ClosedUnder forms D) {name : String}
    (here : Defines forms name → D name) {v : Value}
    (filled : s.slot? frame name = some (.filled (.ok v))) :
    v.AtHome frame ∧ v.Draws forms D := by
  refine ⟨traced.home.values name v filled, fun f inside => ?_⟩
  obtain ⟨member, defined, path⟩ := traced.values name v filled f inside
  exact ⟨member, closed.of_reflTransGen (here defined) path⟩

/-- A name in a home frame stands for an argument, or else for what its slot is filled with. -/
theorem IsHome.lookup_eq_ok (home : s.IsHome frame) {locals : Bindings Value} {name : String}
    {v : Value} (h : Scope.lookup ⟨locals, frame⟩ s name = .ok v) :
    locals.get? name = some v ∨
      locals.get? name = none ∧ s.slot? frame name = some (.filled (.ok v)) := by
  unfold Scope.lookup at h
  dsimp only at h
  rw [home.lookup] at h
  cases arg : locals.get? name with
  | some w =>
    rw [arg] at h
    cases h
    exact .inl rfl
  | none =>
    rw [arg] at h
    cases found : s.slot? frame name with
    | none =>
      rw [found] at h
      cases h
    | some slot =>
      rw [found] at h
      cases slot with
      | reserved => cases h
      | filled r =>
        cases h
        exact .inr ⟨rfl, rfl⟩

/-! ## Calls -/

/-- All calls get to an end of functions that the program defines under the name, with arguments and
results whose functions are defined under names that satisfy the condition. -/
def CallsEnd (s : Store) (frame : FrameId) (forms : List Form) (D : String → Prop)
    (name : String) : Prop :=
  ∀ f args call, f.name = name → (Value.closure f).AtHome frame ∧ (Value.closure f).Draws forms D →
    (∀ a ∈ args, a.AtHome frame ∧ a.Draws forms D) →
      Ends (fun v => v.AtHome frame ∧ v.Draws forms D)
        fun fuel => s.applyAtFuel fuel (.closure f) args call

/-- **One call.** Calls of a function get to an end if the calls of all those functions do to which
its name leads. -/
theorem Traced.callsEnd_of_path (traced : s.Traced frame forms) (h : NonRecursive forms)
    (closed : ClosedUnder forms D) {name : String}
    (ih : ∀ other, TransGen (RefersTo forms) name other → s.CallsEnd frame forms D other) :
    s.CallsEnd frame forms D name := by
  rintro f args call rfl ⟨atHome, draws⟩ all
  have here : f.home = frame := by
    cases atHome with
    | closure here => exact here
  obtain ⟨member, reached⟩ := draws f (.self _)
  have counted : ∀ x, Eval.checkCount f.name f.params.length args = .ok x →
      args.length = f.params.length := by
    intro x accepted
    unfold Eval.checkCount at accepted
    split at accepted
    · next count => exact Arity.accepts_exactly.1 count
    · cases accepted
  refine (ends_ofExcept counted).bind fun _ length => ?_
  simp only [here, traced.home.live, if_true]
  have isParam {word : String} :
      ((Bindings.ofList (f.params.zip args)).get? word).isSome = true ↔ word ∈ f.params := by
    rw [Bindings.isSome_get?_ofList, List.map_fst_zip length.ge]
  have refers {word : String} (mentioned : f.body.Mentions word)
      (free : (Bindings.ofList (f.params.zip args)).get? word = none)
      (defined : Defines forms word) : RefersTo forms f.name word := by
    refine ⟨defined, _, member, rfl, .function f.name mentioned ?_⟩
    rw [← isParam, free]
    nofun
  refine evalAtFuel_ends (Value.hereditary_draws forms D) ?_ ?_
  · intro word mentioned v found
    rcases traced.home.lookup_eq_ok found with arg | ⟨free, slot⟩
    · exact all v (List.of_mem_zip (Bindings.mem_of_get?_ofList arg)).2
    · exact traced.draws closed (fun defined => closed reached (refers mentioned free defined)) slot
  · intro word called g found args' call' all'
    rcases traced.home.lookup_eq_ok found with arg | ⟨free, slot⟩
    · have param := isParam.1 (Option.isSome_of_eq_some arg)
      exact absurd called (h.firstOrder _ _ _ member word param)
    · -- The function leads to the name that it calls, and this name to the function it stands for.
      obtain ⟨-, defined, path⟩ := traced.values word _ slot g (.self _)
      have step := refers called.mentions free defined
      have drawn := traced.draws closed (fun _ => closed reached step) slot
      exact ih g.name (.head' step path) g args' call' rfl drawn all'

/-- All calls of functions that a program without recursion defines get to an end. -/
theorem Traced.callsEnd (traced : s.Traced frame forms) (h : NonRecursive forms)
    (closed : ClosedUnder forms D) {name : String} (defined : Defines forms name) :
    s.CallsEnd frame forms D name :=
  h.induction (fun _ ih => traced.callsEnd_of_path h closed ih) defined

/-- An expression at the top level gets to an end, with no other functions inside the result than
the names in the expression lead to. -/
theorem Traced.evalAtFuel_ends (traced : s.Traced frame forms) (h : NonRecursive forms)
    (closed : ClosedUnder forms D) {e : Expr}
    (mentioned : ∀ word, e.Mentions word → Defines forms word → D word) :
    Ends (fun v => v.AtHome frame ∧ v.Draws forms D)
      fun fuel => s.evalAtFuel fuel (.top frame) e := by
  have slot {word : String} {v : Value} (found : (Scope.top frame).lookup s word = .ok v) :
      s.slot? frame word = some (.filled (.ok v)) := by
    rcases traced.home.lookup_eq_ok found with arg | ⟨-, slot⟩
    · cases arg
    · exact slot
  refine Store.evalAtFuel_ends (Value.hereditary_draws forms D) ?_ ?_
  · intro word inside v found
    exact traced.draws closed (mentioned word inside) (slot found)
  · intro word called g found args call all
    have drawn := traced.draws closed (mentioned word called.mentions) (slot found)
    have defined := Defines.function (drawn.2 g (.self _)).1
    exact traced.callsEnd h closed defined g args call rfl drawn all

/-- A function whose body applies the parameter to itself refers to nothing. But applied to itself,
it does not get to an end, in whatever store it is called. -/
theorem applyAtFuel_self {f : Closure} {param : String} (params : f.params = [param])
    (body : f.body = .call param [.name param]) (live : s.isLive f.home = true) (fuel : Nat)
    (call : Expr) : s.applyAtFuel fuel (.closure f) [.closure f] call = .outOfFuel := by
  let scope : Scope := ⟨.ofList [(param, .closure f)], f.home⟩
  have found : scope.lookup s param = .ok (.closure f) := by
    have arg : scope.locals.get? param = some (.closure f) :=
      (Bindings.get?_insert _ param param _).trans (if_pos rfl)
    rw [Scope.lookup, arg]
  have applied (fuel : Nat) (call : Expr) : s.applyAtFuel fuel (.closure f) [.closure f] call =
      s.evalAtFuel fuel scope (.call param [.name param]) := by
    unfold applyAtFuel Eval.apply
    dsimp only
    rw [params, body, if_pos live]
    rfl
  rw [applied]
  induction fuel with
  | zero => rfl
  | succ fuel ih =>
    unfold evalAtFuel
    dsimp only
    rw [found]
    cases fuel with
    | zero => rfl
    | succ fuel =>
      have arg : Eval.all (fun e => s.evalAtFuel (fuel + 1) scope e) [.name param] =
          .result [.closure f] := by
        unfold Eval.all evalAtFuel
        dsimp only
        rw [found]
        rfl
      rw [arg]
      exact (applied (fuel + 1) call).trans ih

/-! ## Definitions -/

/-- An expression at the top level has its result or error from some fuel on. -/
theorem Traced.completes_eval? (traced : s.Traced frame forms) (h : NonRecursive forms) (e : Expr) :
    Completes fun fuel => s.eval? fuel frame e := by
  have ends : Ends _ fun fuel => s.evalAtFuel fuel (.top frame) e :=
    traced.evalAtFuel_ends h (D := fun _ => True) (fun _ _ => trivial) fun _ _ _ => trivial
  exact ends.finished?.imp fun _ => And.left

/-- The result of an expression has no other functions inside than the names in the expression lead
to. -/
theorem Traced.draws_of_eval? (traced : s.Traced frame forms) (h : NonRecursive forms)
    (closed : ClosedUnder forms D) {e : Expr}
    (mentioned : ∀ word, e.Mentions word → Defines forms word → D word) {v : Value}
    (evaluated : s.eval? fuel frame e = some (.ok v)) : v.Draws forms D := by
  obtain ⟨r, same, holds⟩ := (traced.evalAtFuel_ends h closed mentioned).finished?
  obtain ⟨more, evaluated'⟩ := same.exists
  exact (holds v (eval?_unique evaluated' evaluated)).2

/-- A frame with the library is traced, as there are no functions of the program in it. -/
theorem traced_newLibrary (s : Store) (forms : List Form) :
    s.newLibrary.2.Traced s.newLibrary.1 forms := by
  refine ⟨isHome_newLibrary s, fun name v filled => ?_⟩
  obtain ⟨w, same, mem⟩ := slot?_newLibrary filled
  cases same
  rcases mem_library mem with ⟨f, -, rfl⟩ | ⟨x, rfl⟩ | struct
  · rintro f ⟨⟩
  · rintro f ⟨⟩
  · exact Value.draws_functions struct

/-- Reserving names keeps the frame traced. -/
theorem Traced.reserveAll (traced : s.Traced frame forms) (names : List String) :
    (s.reserveAll frame names).Traced frame forms :=
  ⟨traced.home.reserveAll names, fun name v filled =>
    traced.values name v (slot?_of_reserveAll traced.home.there filled)⟩

/-- A definition of the program keeps the frame traced. -/
theorem Traced.runDefinition (traced : s.Traced frame forms) (h : NonRecursive forms)
    {d : Definition} (mem : .definition d ∈ forms) {r : FormResult}
    (ran : s.runDefinition fuel frame d = some (r, t)) : t.Traced frame forms := by
  refine ⟨traced.home.runDefinition ran, fun name v filled => ?_⟩
  rcases result_of_runDefinition traced.home.there ran filled with before | ⟨entries, has, inside⟩
  · exact traced.values name v before
  cases d with
  | constant first body =>
    obtain ⟨result, evaluated, built⟩ := Option.bind_eq_some_iff.1 has
    cases built
    cases List.mem_singleton.1 inside
    have defined : Defines forms name := .constant mem
    refine traced.draws_of_eval? h (fun here step => ⟨defined, here.2.tail step⟩) ?_ evaluated
    intro word mentioned defined'
    exact ⟨defined, .single ⟨defined', _, mem, rfl, .constant name mentioned⟩⟩
  | function first params body =>
    cases has
    cases List.mem_singleton.1 inside
    rintro f ⟨⟩
    exact ⟨mem, .function mem, .refl⟩
  | struct struct fields =>
    cases has
    obtain ⟨⟨other, w⟩, function, same⟩ := List.mem_map.1 inside
    cases same
    exact Value.draws_functions function

/-! ## Programs -/

/-- A form of the program keeps the frame traced. -/
theorem Traced.runForm (traced : s.Traced frame forms) (h : NonRecursive forms) {form : Form}
    (mem : form ∈ forms) {pending : Pending}
    (ran : s.runForm fuel frame form = some (pending, t)) : t.Traced frame forms := by
  cases form with
  | definition d =>
    obtain ⟨⟨r, after⟩, defined, built⟩ := Option.bind_eq_some_iff.1 ran
    cases built
    exact traced.runDefinition h mem defined
  | expression e =>
    obtain ⟨result, -, built⟩ := Option.bind_eq_some_iff.1 ran
    cases result <;> cases built <;> exact traced
  | check | malformed =>
    cases ran
    exact traced

/-- Forms of the program keep the frame traced. -/
theorem Traced.runForms (traced : s.Traced frame forms) (h : NonRecursive forms)
    {fs : List Form} (mem : ∀ form ∈ fs, form ∈ forms) {pendings : List Pending}
    (ran : s.runForms fuel frame fs = some (pendings, t)) : t.Traced frame forms := by
  induction fs generalizing s pendings with
  | nil =>
    cases ran
    exact traced
  | cons form others ih =>
    obtain ⟨here, mem⟩ := List.forall_mem_cons.1 mem
    obtain ⟨first, middle, rest, now, later, -⟩ := runForms_cons ran
    exact ih (traced.runForm h here now) mem later

/-- A definition gets to an end. -/
theorem Traced.completes_runDefinition (traced : s.Traced frame forms) (h : NonRecursive forms)
    (d : Definition) : Completes fun fuel => s.runDefinition fuel frame d := by
  cases d with
  | constant name body =>
    refine (traced.completes_eval? h body).bind fun _ result _ => completes_const ?_
    split <;> rfl
  | function name params body =>
    refine completes_const ?_
    split <;> rfl
  | struct name fields =>
    simp only [runDefinition_struct]
    exact completes_const rfl

/-- A form gets to an end. -/
theorem Traced.completes_runForm (traced : s.Traced frame forms) (h : NonRecursive forms)
    (form : Form) : Completes fun fuel => s.runForm fuel frame form := by
  cases form with
  | definition d =>
    exact (traced.completes_runDefinition h d).bind fun _ _ _ => completes_const rfl
  | expression e =>
    refine (traced.completes_eval? h e).bind fun _ result _ => completes_const ?_
    cases result <;> rfl
  | check | malformed => exact completes_const rfl

/-- Forms of the program get to an end. -/
theorem Traced.completes_runForms (traced : s.Traced frame forms) (h : NonRecursive forms)
    {fs : List Form} (mem : ∀ form ∈ fs, form ∈ forms) :
    Completes fun fuel => s.runForms fuel frame fs := by
  induction fs generalizing s with
  | nil => exact completes_const rfl
  | cons form others ih =>
    obtain ⟨here, mem⟩ := List.forall_mem_cons.1 mem
    refine (traced.completes_runForm h form).bind fun _ ⟨_, middle⟩ ran => ?_
    exact (ih (traced.runForm h here ran) mem).bind fun _ _ _ => completes_const rfl

/-- Tests that wait get to an end. -/
theorem Traced.completes_settle (traced : s.Traced frame forms) (h : NonRecursive forms)
    (pendings : List Pending) : Completes fun fuel => s.settle fuel frame pendings := by
  induction pendings with
  | nil => exact completes_const rfl
  | cons pending pendings ih =>
    cases pending with
    | done r => exact ih.bind fun _ _ _ => completes_const rfl
    | waiting c =>
      refine (Check.completes_run (traced.completes_eval? h) c).bind fun _ _ _ => ?_
      exact ih.bind fun _ _ _ => completes_const rfl

/-- A program without recursion gets to an end in every frame that is traced for it. -/
theorem Traced.completes_run (traced : s.Traced frame forms) (h : NonRecursive forms) :
    Completes fun fuel => s.run fuel frame forms := by
  have reserved := traced.reserveAll (forms.flatMap Form.boundNames)
  have whole : ∀ form ∈ forms, form ∈ forms := fun _ mem => mem
  refine (reserved.completes_runForms h whole).bind fun _ ⟨pendings, last⟩ ran => ?_
  refine ((reserved.runForms h whole ran).completes_settle h pendings).bind fun _ _ _ => ?_
  exact completes_const rfl

end Store

/-! ## Program texts -/

namespace Program

/-- **Only recursion goes on forever.** If no constant or function of a program text refers to
itself, not even through others, and no function calls one of its parameters, then every form of the
text has its result from some fuel on, whatever the forms are. -/
theorem NonRecursive.exists_runText {source : String} (h : NonRecursive (Form.ofText source)) :
    ∃ fuel results, results.length = (Form.ofText source).length ∧
      ∀ more, fuel ≤ more → runText more source = some results := by
  have traced := Store.traced_newLibrary .empty (Form.ofText source)
  have ran : Completes fun fuel => run fuel (Form.ofText source) :=
    (traced.completes_run h).bind fun _ _ _ => completes_const rfl
  have located : Completes fun fuel => runText fuel source :=
    ran.bind fun _ _ _ => completes_const rfl
  obtain ⟨results, same⟩ := located
  obtain ⟨fuel, same⟩ := eventually_atTop.1 same
  refine ⟨fuel, results, ?_, same⟩
  obtain ⟨rs, last, ran, rfl⟩ := runText_eq_some_iff.1 (same fuel le_rfl)
  have length := length_run ran
  rw [Form.ofData, List.length_map] at length
  rw [length_locate length, Form.ofText, List.length_map]

/-- A program text in which a function travels in the field of a structure and is called under
another name than its own. -/
def boxSource : String :=
  "(define-struct box (item)) (define (same x) x) (define full (make-box same)) " ++
    "(define again (box-item full)) (again #true)"

/-- The text is not recursive: `again` refers to `full`, `full` to `same`, and `same` to nothing. So
all its forms have their results. -/
theorem boxSource_gets_to_an_end :
    NonRecursive (Form.ofText boxSource) ∧ ∃ fuel results,
      results.length = (Form.ofText boxSource).length ∧
        ∀ more, fuel ≤ more → runText more boxSource = some results := by
  have read : (Sexp.ofText boxSource).map (·.sexp) =
      [.list [.name "define-struct", .name "box", .list [.name "item"]],
        .list [.name "define", .list [.name "same", .name "x"], .name "x"],
        .list [.name "define", .name "full", .list [.name "make-box", .name "same"]],
        .list [.name "define", .name "again", .list [.name "box-item", .name "full"]],
        .list [.name "again", .boolean true]] := by decide +kernel
  have parsed : Form.ofText boxSource = [.definition (.struct "box" ["item"]),
      .definition (.function "same" ["x"] (.name "x")),
      .definition (.constant "full" (.call "make-box" [.name "same"])),
      .definition (.constant "again" (.call "box-item" [.name "full"])),
      .expression (.call "again" [.boolean true])] := Form.ofText_of_read read
  let rank (name : String) : Nat := if name = "again" then 2 else if name = "full" then 1 else 0
  have lower : ∀ name other, RefersTo (Form.ofText boxSource) name other →
      rank other < rank name := by
    rintro name other ⟨-, d, mem, rfl, mentions⟩
    simp only [parsed, List.mem_cons, Form.definition.injEq, reduceCtorEq, List.not_mem_nil,
      or_false] at mem
    rcases mem with rfl | rfl | rfl | rfl
    · simp at mentions
    · simp at mentions
    · have : other = "make-box" ∨ other = "same" := by simpa using mentions
      rcases this with rfl | rfl <;> decide
    · have : other = "box-item" ∨ other = "full" := by simpa using mentions
      rcases this with rfl | rfl <;> decide
  have descends : ∀ name other, TransGen (RefersTo (Form.ofText boxSource)) name other →
      rank other < rank name := by
    intro name other path
    induction path with
    | single step => exact lower _ _ step
    | tail _ step ih => exact (lower _ _ step).trans ih
  have h : NonRecursive (Form.ofText boxSource) := by
    refine ⟨fun name path => lt_irrefl _ (descends name name path), ?_⟩
    intro name params body mem param _ called
    simp only [parsed, List.mem_cons, Form.definition.injEq, Definition.function.injEq,
      reduceCtorEq, List.not_mem_nil, or_false, false_or] at mem
    obtain ⟨-, -, rfl⟩ := mem
    rcases called with _ | ⟨part, -⟩
    cases part
  exact ⟨h, h.exists_runText⟩

end Program

end Tyro
