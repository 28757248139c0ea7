import Tyro.Proofs.Frames.Home
import Tyro.Proofs.Program.Outcomes

/-!
# What evaluation does to frames

Evaluation adds frames to the store and leaves those that were there as they are
(`Store.IsUnder`, `Course.Leads`). Each frame that it adds was made for a call that is in the log:
it lies on the top level and on nothing else, and binds the parameters of the function to the
arguments (`Frame.IsCall`, `IsShelter`).

`Framed.Computes` is what is proved of every part of an evaluation: as long as all frames are of
this kind, it comes to what `Store.evalAtFuel` comes to in the scope of the call, all frames stay of
this kind, and all that has happened is at home. The parts are chained by `Computes.bind`,
`Framed.evalAtFuel_computes` is the induction on the fuel, and `Framed.check_computes` says the same
of tests.
-/

namespace Tyro

/-! ## Stores that lie under others -/

/-- The second store has all frames of the first as they are, and possibly further ones. -/
structure Store.IsUnder (s t : Store) : Prop where
  frames : s.frames <+: t.frames
  serial : t.nextSerial = s.nextSerial

namespace Store

variable {s t u : Store} {id top : FrameId}

/-- A store lies under itself. -/
theorem IsUnder.refl (s : Store) : s.IsUnder s := ⟨List.prefix_rfl, rfl⟩

/-- What lies under a store lies under what that one lies under. -/
theorem IsUnder.trans (first : s.IsUnder t) (second : t.IsUnder u) : s.IsUnder u :=
  ⟨first.frames.trans second.frames, second.serial.trans first.serial⟩

/-- A frame of the lower store is in the upper one. -/
theorem IsUnder.getElem? (under : s.IsUnder t) {f : Frame} (found : s.frames[id]? = some f) :
    t.frames[id]? = some f := by
  obtain ⟨more, same⟩ := under.frames
  obtain ⟨inside, -⟩ := List.getElem?_eq_some_iff.1 found
  rw [← same, List.getElem?_append_left inside, found]

/-- The frames of the lower store are the same in the upper one. -/
theorem IsUnder.getElem?_eq (under : s.IsUnder t) (there : id < s.frames.length) :
    t.frames[id]? = s.frames[id]? := by
  rw [under.getElem? (List.getElem?_eq_getElem there), List.getElem?_eq_getElem there]

/-- A frame has the same slots in the upper store. -/
theorem IsUnder.slot? (under : s.IsUnder t) (there : id < s.frames.length) (name : String) :
    t.slot? id name = s.slot? id name := by
  rw [Store.slot?, Store.slot?, under.getElem?_eq there]

/-- A frame lies on the same frames in the upper store. -/
theorem IsUnder.chain (under : s.IsUnder t) (there : id < s.frames.length) :
    t.chain id = s.chain id := by
  rw [Store.chain, Store.chain, under.getElem?_eq there]

/-- A frame that is live in the lower store is live in the upper one. -/
theorem IsUnder.isLive (under : s.IsUnder t) (live : s.isLive id = true) : t.isLive id = true := by
  obtain ⟨other, f, found, held, on⟩ := isLive_iff.1 live
  exact isLive_iff.2 ⟨other, f, under.getElem? found, held, on⟩

/-- A home stays a home in the upper store. -/
theorem IsHome.of_isUnder (home : s.IsHome top) (under : s.IsUnder t) : t.IsHome top where
  there := Nat.lt_of_lt_of_le home.there under.frames.length_le
  alone := (under.chain home.there).trans home.alone
  live := under.isLive home.live
  values name v filled := home.values name v (by rwa [← under.slot? home.there])

/-- A store lies under what becomes of it when a frame is added. -/
theorem isUnder_extend (s : Store) (frame : FrameId) (values : List (String × Value)) :
    s.IsUnder (s.extend frame values).2 :=
  ⟨List.prefix_append .., rfl⟩

/-- A frame that only the upper store has can be given up. -/
theorem IsUnder.release (under : s.IsUnder t) (beyond : s.frames.length ≤ id) :
    s.IsUnder (t.release id) := by
  refine ⟨List.prefix_iff_getElem?.2 fun i inside => ?_, under.serial⟩
  have other : id ≠ i := Nat.ne_of_gt (Nat.lt_of_lt_of_le inside beyond)
  change (t.frames.modify id _)[i]? = _
  rw [List.getElem?_modify, under.getElem? (List.getElem?_eq_getElem inside)]
  exact congrArg some (if_neg other)

end Store

/-! ## Courses that lead on -/

/-- The second course comes after the first, and all stores on the way lie above that of the
first. -/
structure Course.Leads (c c' : Course) : Prop where
  store : c.store.IsUnder c'.store
  log : ∃ later, c'.log = later ++ c.log ∧ ∀ m ∈ later, c.store.IsUnder m.store

namespace Course

variable {c c' c'' : Course}

/-- A course leads to itself. -/
theorem Leads.refl (c : Course) : c.Leads c := ⟨.refl _, [], rfl, List.forall_mem_nil _⟩

/-- A course leads where the courses lead that it leads to. -/
theorem Leads.trans (first : c.Leads c') (second : c'.Leads c'') : c.Leads c'' := by
  obtain ⟨later, log, all⟩ := first.log
  obtain ⟨later', log', all'⟩ := second.log
  refine ⟨first.store.trans second.store, later' ++ later, ?_, fun m mem => ?_⟩
  · rw [log', log, List.append_assoc]
  · rcases List.mem_append.1 mem with new | old
    · exact first.store.trans (all' m new)
    · exact all m old

/-- Logging something leads on. -/
theorem leads_note (c : Course) (event : Event) : c.Leads (c.note event) :=
  ⟨.refl _, [_], rfl, List.forall_mem_singleton.2 (.refl _)⟩

end Course

/-! ## Frames of calls -/

/-- The frame was made for a call of the function, which was defined at the top level: it lies on
the top level alone, and binds the parameters to the arguments. -/
structure Frame.IsCall (top : FrameId) (f : Closure) (args : List Value) (frame : Frame) :
    Prop where
  home : f.home = top
  full : args.length = f.params.length
  atHome : ∀ v ∈ args, v.AtHome top
  outers : frame.outers = [top]
  bindings : frame.bindings =
    .ofList ((f.params.zip args).map fun (name, v) => (name, .filled (.ok v)))

/-- What a frame of a call binds a name to is the argument. -/
theorem Frame.IsCall.get? {top : FrameId} {f : Closure} {args : List Value} {frame : Frame}
    (call : frame.IsCall top f args) (name : String) :
    frame.bindings.get? name =
      ((Bindings.ofList (f.params.zip args)).get? name).map fun v => .filled (.ok v) := by
  rw [call.bindings]
  exact Bindings.get?_ofList_map (fun v => Slot.filled (.ok v)) _ name

/-- The call of a function, its arguments and its frame are in the log. -/
def HasCalled (log : List Moment) (f : Closure) (args : List Value) (id : FrameId) : Prop :=
  ∃ m ∈ log, m.event = .calls f args id

/-- The store lies above another one, and each frame that it has beyond is that of a call in the
log. -/
structure IsShelter (t : Store) (top : FrameId) (s : Store) (log : List Moment) : Prop where
  under : t.IsUnder s
  calls : ∀ id frame, s.frames[id]? = some frame → t.frames.length ≤ id →
    ∃ f args, HasCalled log f args id ∧ frame.IsCall top f args

/-- All functions in what has happened were defined at the top level, and no error is that the frame
of a function is gone. -/
def Event.AtHome (top : FrameId) : Event → Prop
  | .calls f args _ => f.home = top ∧ ∀ v ∈ args, v.AtHome top
  | .answers _ _ answer => answer.AtHome top (Value.AtHome top)

/-- All frames beyond those of the store are those of calls, now and at each moment before, and all
that has happened is at home. -/
structure Course.Sheltered (t : Store) (top : FrameId) (c : Course) : Prop where
  now : IsShelter t top c.store c.log
  before : ∀ m rest, m :: rest <:+ c.log → IsShelter t top m.store (m :: rest)
  atHome : ∀ m ∈ c.log, m.event.AtHome top

variable {t : Store} {top : FrameId}

/-- What else is in the log does not matter. -/
theorem IsShelter.cons {s : Store} {log : List Moment} (h : IsShelter t top s log) (m : Moment) :
    IsShelter t top s (m :: log) := by
  refine ⟨h.under, fun id frame found beyond => ?_⟩
  obtain ⟨f, args, ⟨m', mem, called⟩, call⟩ := h.calls id frame found beyond
  exact ⟨f, args, ⟨m', List.mem_cons_of_mem _ mem, called⟩, call⟩

/-- Something at home can be logged, together with what it has done to the store. -/
theorem Course.Sheltered.note {c : Course} (h : c.Sheltered t top) {s : Store} {event : Event}
    (now : IsShelter t top s (⟨s, event⟩ :: c.log)) (here : event.AtHome top) :
    (Course.note ⟨s, c.log⟩ event).Sheltered t top := by
  refine ⟨now, fun m rest suffix => ?_, List.forall_mem_cons.2 ⟨here, h.atHome⟩⟩
  rcases List.suffix_cons_iff.1 suffix with same | earlier
  · cases same
    exact now
  · exact h.before m rest earlier

/-- A frame can be made for a call, if the call is logged. -/
theorem IsShelter.extend {s : Store} {log : List Moment} (h : IsShelter t top s log)
    (home : s.chain top = [top]) {f : Closure} (here : f.home = top) {args : List Value}
    (full : args.length = f.params.length) (atHome : ∀ v ∈ args, v.AtHome top) {m : Moment}
    (called : m.event = .calls f args s.frames.length) :
    IsShelter t top (s.extend top (f.params.zip args)).2 (m :: log) := by
  refine ⟨h.under.trans (s.isUnder_extend _ _), fun id frame found beyond => ?_⟩
  change (s.frames ++ [_])[id]? = some frame at found
  by_cases inside : id < s.frames.length
  · rw [List.getElem?_append_left inside] at found
    exact (h.cons m).calls id frame found beyond
  · rw [List.getElem?_append_right (Nat.le_of_not_lt inside), List.getElem?_singleton] at found
    split at found
    · next last =>
      cases found
      have same : id = s.frames.length := by
        exact Nat.le_antisymm (Nat.le_of_sub_eq_zero last) (Nat.le_of_not_lt inside)
      subst same
      exact ⟨f, args, ⟨m, List.mem_cons_self, called⟩, here, full, atHome, home, rfl⟩
    · cases found

/-- A frame of a call can be given up. -/
theorem IsShelter.release {s : Store} {log : List Moment} (h : IsShelter t top s log) {id : FrameId}
    (beyond : t.frames.length ≤ id) : IsShelter t top (s.release id) log := by
  refine ⟨h.under.release beyond, fun other frame found beyond' => ?_⟩
  change (s.frames.modify id _)[other]? = some frame at found
  rw [List.getElem?_modify] at found
  obtain ⟨before, found', same⟩ := Option.map_eq_some_iff.1 found
  obtain ⟨f, args, called, call⟩ := h.calls other before found' beyond'
  refine ⟨f, args, called, call.home, call.full, call.atHome, ?_, ?_⟩
  · rw [← same, ← call.outers]
    split <;> rfl
  · rw [← same, ← call.bindings]
    split <;> rfl

/-! ## Names in frames -/

/-- The scope in which expressions are evaluated that are evaluated in the frame: the frame is the
top level, or that of a call with the arguments. -/
inductive Store.Stands (s : Store) (top : FrameId) : FrameId → Bindings Value → Prop
  | top : Stands s top top .empty
  | call {id : FrameId} {frame : Frame} {f : Closure} {args : List Value}
    (found : s.frames[id]? = some frame) (call : frame.IsCall top f args) :
    Stands s top id (.ofList (f.params.zip args))

namespace Store

variable {s s' : Store} {id : FrameId} {locals : Bindings Value}

/-- A frame stands for the same scope in the upper store. -/
theorem Stands.of_isUnder (stands : s.Stands top id locals) (under : s.IsUnder s') :
    s'.Stands top id locals := by
  cases stands with
  | top => exact .top
  | call found call => exact .call (under.getElem? found) call

/-- The frame of a call lies on the top level and on nothing else. -/
theorem chain_of_isCall {frame : Frame} {f : Closure} {args : List Value}
    (found : s.frames[id]? = some frame) (call : frame.IsCall top f args) :
    s.chain id = [id, top] := by
  unfold Store.chain
  rw [found, ← call.outers]

/-- In the frame of a call, names are looked up there and then at the top level, and nowhere
else. -/
theorem lookup_of_isCall {frame : Frame} {f : Closure} {args : List Value}
    (found : s.frames[id]? = some frame) (call : frame.IsCall top f args) (name : String) :
    s.lookup id name = (s.slot? id name).or (s.slot? top name) := by
  unfold Store.lookup
  rw [chain_of_isCall found call, List.findSome?_cons]
  cases s.slot? id name with
  | some slot => rfl
  | none =>
    rw [List.findSome?_cons]
    cases s.slot? top name <;> rfl

/-- The slot of a frame of a call is that of an argument. -/
theorem slot?_of_isCall {frame : Frame} {f : Closure} {args : List Value}
    (found : s.frames[id]? = some frame) (call : frame.IsCall top f args) (name : String) :
    s.slot? id name =
      ((Bindings.ofList (f.params.zip args)).get? name).map fun v => .filled (.ok v) := by
  unfold Store.slot?
  rw [found]
  exact call.get? name

/-- **Names mean in a frame what they mean in its scope.** -/
theorem Stands.lookup_eq (stands : s.Stands top id locals) (home : t.IsHome top)
    (under : t.IsUnder s) (name : String) :
    (Scope.top id).lookup s name = Scope.lookup ⟨locals, top⟩ t name := by
  have above : s.lookup top name = t.lookup top name := by
    rw [(home.of_isUnder under).lookup, home.lookup, under.slot? home.there]
  cases stands with
  | top =>
    unfold Scope.lookup Scope.top
    rw [above]
  | call found call =>
    unfold Scope.lookup Scope.top
    dsimp only
    rw [Bindings.get?_empty, lookup_of_isCall found call, slot?_of_isCall found call,
      ← (home.of_isUnder under).lookup, above]
    cases (Bindings.ofList _).get? name <;> rfl

/-- What a name means in a scope is at home. -/
theorem Stands.atHome_lookup (stands : s.Stands top id locals)
    (upholds : t.Upholds top (OutcomeAtHome top)) (name : String) :
    OutcomeAtHome top (Scope.lookup ⟨locals, top⟩ t name) := by
  have outside : OutcomeAtHome top ((Scope.top top).lookup t name) := by
    rw [upholds.home.meaning]
    cases found : t.slot? top name with
    | none => exact ⟨List.forall_mem_nil _, nofun⟩
    | some slot =>
      cases slot with
      | reserved => exact ⟨List.forall_mem_nil _, nofun⟩
      | filled r => exact upholds.stored name r found
  cases stands with
  | top => exact outside
  | call _ call =>
    unfold Scope.lookup
    dsimp only
    cases found : (Bindings.ofList _).get? name with
    | none => exact outside
    | some v => exact call.atHome v (List.of_mem_zip (Bindings.mem_of_get?_ofList found)).2

end Store

/-! ## Parts of an evaluation -/

namespace Framed

variable {α β : Type} {frame : FrameId} {locals : Bindings Value}

/-- In the frame, which stands for the scope with the locals, the computation comes to the answer,
this is at home, and the course leads on with all frames being those of calls. -/
def Computes (t : Store) (top frame : FrameId) (locals : Bindings Value) (m : Framed α)
    (a : Answer α) (R : α → Prop) : Prop :=
  ∀ c : Course, c.Sheltered t top → c.store.Stands top frame locals →
    ∃ c', m c = (a, c') ∧ c'.Sheltered t top ∧ c.Leads c' ∧ a.AtHome top R

/-- Computations are chained. -/
theorem Computes.bind {m : Framed α} {a : Answer α} {R : α → Prop} {next : α → Framed β}
    {next' : α → Answer β} {R' : β → Prop} (first : Computes t top frame locals m a R)
    (rest : ∀ x, R x → Computes t top frame locals (next x) (next' x) R') :
    Computes t top frame locals (m >>= next) (a >>= next') R' := by
  intro c sheltered stands
  obtain ⟨middle, ran, sheltered', leads, here⟩ := first c sheltered stands
  change ∃ c', Framed.bind m next c = _ ∧ _
  unfold Framed.bind
  rw [ran]
  cases a with
  | result x =>
    obtain ⟨last, ran', sheltered'', leads', here'⟩ :=
      rest x here middle sheltered' (stands.of_isUnder leads.store)
    exact ⟨last, ran', sheltered'', leads.trans leads', here'⟩
  | error e => exact ⟨middle, rfl, sheltered', leads, here⟩
  | outOfFuel => exact ⟨middle, rfl, sheltered', leads, here⟩

/-- Computations are chained as the optional results are chained that they come to. -/
theorem Computes.bind_ofOption {m : Framed α} {x : Option α} {R : α → Prop} {next : α → Framed β}
    {next' : α → Option β} {R' : β → Prop} (first : Computes t top frame locals m (.ofOption x) R)
    (rest : ∀ y, R y → Computes t top frame locals (next y) (.ofOption (next' y)) R') :
    Computes t top frame locals (m >>= next) (.ofOption (x >>= next')) R' := by
  have chained := first.bind rest
  cases x <;> exact chained

/-- An answer at home leaves the course as it is. -/
theorem computes_ofAnswer {a : Answer α} {R : α → Prop} (here : a.AtHome top R) :
    Computes t top frame locals (ofAnswer a) a R :=
  fun c sheltered _ => ⟨c, rfl, sheltered, .refl c, here⟩

/-- A result leaves the course as it is. -/
theorem computes_pure {x : α} {R : α → Prop} (here : R x) :
    Computes t top frame locals (pure x) (.result x) R :=
  computes_ofAnswer here

/-- An error without values leaves the course as it is. -/
theorem computes_error {e : EvalError} {R : α → Prop} (here : e.AtHome top) :
    Computes t top frame locals (ofAnswer (.error e)) (.error e) R :=
  computes_ofAnswer here

section Parts

variable {eval : Expr → Framed Value} {eval' : Expr → Answer Value}
  (part : ∀ e, Computes t top frame locals (eval e) (eval' e) (Value.AtHome top))
include part

/-- Several expressions come to values at home. -/
theorem computes_all (es : List Expr) :
    Computes t top frame locals (all eval es) (Eval.all eval' es)
      fun vs => ∀ v ∈ vs, v.AtHome top := by
  induction es with
  | nil => exact computes_pure (List.forall_mem_nil _)
  | cons e es ih =>
    refine (part e).bind fun v here => ?_
    exact ih.bind fun vs all => computes_pure (List.forall_mem_cons.2 ⟨here, all⟩)

/-- A question comes to a truth value, or its value is refused. -/
theorem computes_question (form q : Expr) :
    Computes t top frame locals (question eval form q) (Eval.question eval' form q)
      fun _ => True := by
  refine (part q).bind fun v here => ?_
  cases v.boolean? with
  | some b => exact computes_pure trivial
  | none => exact computes_error ⟨List.forall_mem_singleton.2 here, nofun⟩

/-- Clauses come to the answer of the first one whose question is true. -/
theorem computes_clauses (form : Expr) (cs : Clauses) :
    Computes t top frame locals (clauses eval form cs) (Eval.clauses eval' form cs)
      (Value.AtHome top) := by
  match cs with
  | .none => exact computes_error ⟨List.forall_mem_nil _, nofun⟩
  | .otherwise answer => exact part answer
  | .clause q answer rest =>
    refine (computes_question part form q).bind fun b _ => ?_
    cases b with
    | true => exact part answer
    | false => exact computes_clauses form rest

/-- Logical forms come to truth values. -/
theorem computes_operands (form : Expr) (connective : Connective) (es : List Expr) :
    Computes t top frame locals (operands eval form connective es)
      (Eval.operands eval' form connective es) (Value.AtHome top) := by
  induction es with
  | nil => exact computes_pure (.boolean _)
  | cons e es ih =>
    refine (computes_question part form e).bind fun b _ => ?_
    by_cases settled : b = connective.settledBy
    · rw [if_pos settled, if_pos settled]
      exact computes_pure (.boolean b)
    · rw [if_neg settled, if_neg settled]
      exact ih

end Parts

/-- A name comes to what it means in the scope. -/
theorem computes_lookup (upholds : t.Upholds top (OutcomeAtHome top)) (name : String) :
    Computes t top frame locals (lookup frame name)
      (.ofExcept (Scope.lookup ⟨locals, top⟩ t name)) (Value.AtHome top) := by
  intro c sheltered stands
  refine ⟨c, ?_, sheltered, .refl c, (stands.atHome_lookup upholds name).ofExcept⟩
  unfold Framed.lookup
  rw [stands.lookup_eq upholds.home sheltered.now.under]

/-- Answers can be logged. -/
theorem Computes.answered {m : Framed Value} {a : Answer Value}
    (h : Computes t top frame locals m a (Value.AtHome top)) (e : Expr) :
    Computes t top frame locals (answered frame e m) a (Value.AtHome top) := by
  intro c sheltered stands
  obtain ⟨c', ran, sheltered', leads, here⟩ := h c sheltered stands
  refine ⟨c'.note (.answers frame e a), ?_, ?_, leads.trans (c'.leads_note _), here⟩
  · unfold Framed.answered
    rw [ran]
  · exact sheltered'.note (sheltered'.now.cons _) here

/-- A call whose frame can be made has the answer of the body. -/
theorem enter_of_live {eval : FrameId → Expr → Framed Value} {f : Closure} {args : List Value}
    {c c' : Course} {answer : Answer Value} (live : c.store.isLive f.home = true)
    (ran : eval c.store.frames.length f.body
      (Course.note ⟨(c.store.extend f.home (f.params.zip args)).2, c.log⟩
        (.calls f args c.store.frames.length)) = (answer, c')) :
    enter eval f args c =
      (answer, { c' with store := c'.store.release c.store.frames.length }) := by
  unfold enter
  rw [if_pos live]
  exact congrArg (fun out : Answer Value × Course =>
    (out.1, { out.2 with store := out.2.store.release c.store.frames.length })) ran

/-- **A call** is evaluated in a frame of its own, which is given up afterwards: the body comes to
what it comes to in the scope of the arguments on top of the top level. -/
theorem computes_enter (home : t.IsHome top) {eval : FrameId → Expr → Framed Value}
    {eval' : Scope → Expr → Answer Value} {f : Closure} (here : f.home = top) {args : List Value}
    (full : args.length = f.params.length) (atHome : ∀ v ∈ args, v.AtHome top)
    (body : ∀ frame locals,
      Computes t top frame locals (eval frame f.body) (eval' ⟨locals, top⟩ f.body)
        (Value.AtHome top)) :
    Computes t top frame locals (enter eval f args)
      (eval' ⟨.ofList (f.params.zip args), top⟩ f.body) (Value.AtHome top) := by
  subst here
  intro c sheltered _
  have home' := home.of_isUnder sheltered.now.under
  have beyond : t.frames.length ≤ c.store.frames.length := sheltered.now.under.frames.length_le
  -- The frame is made, and the call is logged.
  let id := c.store.frames.length
  let s := (c.store.extend f.home (f.params.zip args)).2
  have under : c.store.IsUnder s := c.store.isUnder_extend f.home _
  have entered : (Course.note ⟨s, c.log⟩ (.calls f args id)).Sheltered t f.home :=
    sheltered.note (sheltered.now.extend home'.alone rfl full atHome rfl) ⟨rfl, atHome⟩
  have found : s.frames[id]? = some ⟨c.store.chain f.home, _, true⟩ := List.getElem?_concat_length
  have stands : s.Stands f.home id (.ofList (f.params.zip args)) :=
    .call found ⟨rfl, full, atHome, home'.alone, rfl⟩
  -- The body is evaluated.
  obtain ⟨c', ran, sheltered', leads, answered⟩ := body id _ _ entered stands
  -- The frame is given up.
  refine ⟨{ c' with store := c'.store.release id }, ?_, ?_, ?_, answered⟩
  · exact enter_of_live home'.live ran
  · exact ⟨sheltered'.now.release beyond, sheltered'.before, sheltered'.atHome⟩
  · have first : c.Leads (Course.note ⟨s, c.log⟩ (.calls f args id)) :=
      ⟨under, [_], rfl, List.forall_mem_singleton.2 under⟩
    have both := first.trans leads
    exact ⟨both.store.release (Nat.le_refl _), both.log⟩

/-- Applying a function at home to arguments at home makes frames of calls only. -/
theorem computes_apply (home : t.IsHome top) {eval : FrameId → Expr → Framed Value}
    {eval' : Scope → Expr → Answer Value}
    (body : ∀ frame locals e,
      Computes t top frame locals (eval frame e) (eval' ⟨locals, top⟩ e) (Value.AtHome top))
    {f : Value} (here : f.AtHome top) {args : List Value} (atHome : ∀ v ∈ args, v.AtHome top)
    (call : Expr) :
    Computes t top frame locals (apply eval f args call) (Eval.apply t eval' f args call)
      (Value.AtHome top) := by
  have own (other : ∀ g, f ≠ .closure g) :
      Computes t top frame locals (ofAnswer (Eval.apply t eval' f args call))
        (Eval.apply t eval' f args call) (Value.AtHome top) :=
    computes_ofAnswer (Eval.atHome_apply other atHome call)
  cases here with
  | @closure f here =>
    refine (computes_ofAnswer (Eval.atHome_checkCount _ _ args)).bind fun _ full => ?_
    rw [here, if_pos home.live]
    exact computes_enter home here full atHome fun frame locals => body frame locals f.body
  | _ => exact own nofun

/-- **Evaluation in frames** comes to what evaluation in scopes comes to, and makes frames of calls
only. -/
theorem evalAtFuel_computes (upholds : t.Upholds top (OutcomeAtHome top)) (fuel : Nat)
    (frame : FrameId) (locals : Bindings Value) (e : Expr) :
    Computes t top frame locals (evalAtFuel fuel frame e) (t.evalAtFuel fuel ⟨locals, top⟩ e)
      (Value.AtHome top) := by
  induction fuel generalizing frame locals e with
  | zero => exact computes_ofAnswer trivial
  | succ fuel ih =>
    refine Computes.answered ?_ e
    cases e with
    | string content => exact computes_pure (.string content)
    | number value => exact computes_pure (.number value)
    | boolean value => exact computes_pure (.boolean value)
    | name word => exact computes_lookup upholds word
    | template dots => exact computes_error ⟨List.forall_mem_nil _, nofun⟩
    | call function args =>
      refine (computes_lookup upholds function).bind fun f here => ?_
      refine (computes_all (ih frame locals) args).bind fun vs all => ?_
      exact computes_apply upholds.home ih here all _
    | ifElse q yes no =>
      refine (computes_question (ih frame locals) _ q).bind fun b _ => ?_
      cases b with
      | true => exact ih frame locals yes
      | false => exact ih frame locals no
    | cond cs => exact computes_clauses (ih frame locals) _ cs
    | logical connective es => exact computes_operands (ih frame locals) _ connective es

/-! ## Tests -/

/-- Errors can be caught. -/
theorem Computes.caught {m : Framed α} {a : Answer α} {R : α → Prop}
    (h : Computes t top frame locals m a R) :
    Computes t top frame locals (caught m) (.ofOption a.finished?) fun _ => True := by
  intro c sheltered stands
  obtain ⟨c', ran, sheltered', leads, -⟩ := h c sheltered stands
  unfold Framed.caught
  rw [ran]
  cases a <;> exact ⟨c', rfl, sheltered', leads, trivial⟩

section Tests

variable {eval : Expr → Framed (Except EvalError Value)}
  {eval' : Expr → Option (Except EvalError Value)}
  (part : ∀ e, Computes t top frame locals (eval e) (.ofOption (eval' e)) fun _ => True)
include part

/-- The message that a test expects is evaluated if it names one. -/
theorem computes_expectedMessage (message : Option Expr) :
    Computes t top frame locals (expectedMessage eval message)
      (.ofOption (Check.expectedMessage eval' message)) fun _ => True := by
  cases message with
  | none => exact computes_pure trivial
  | some m => exact (part m).bind_ofOption fun _ _ => computes_pure trivial

/-- A test evaluates some of its parts, one after the other. -/
theorem computes_runCheck (c : Check) :
    Computes t top frame locals (runCheck eval c) (.ofOption (c.run eval')) fun _ => True := by
  cases c with
  | expect actual expected =>
    refine (part expected).bind_ofOption fun wanted _ => ?_
    cases wanted with
    | error e => exact computes_pure trivial
    | ok wanted =>
      refine (part actual).bind_ofOption fun given _ => ?_
      cases given <;> exact computes_pure trivial
  | within actual expected delta =>
    refine (part expected).bind_ofOption fun wanted _ => ?_
    cases wanted with
    | error e => exact computes_pure trivial
    | ok wanted =>
      refine (part delta).bind_ofOption fun tolerance _ => ?_
      cases Check.toleranceOf tolerance with
      | error e => exact computes_pure trivial
      | ok tolerance =>
        refine (part actual).bind_ofOption fun given _ => ?_
        cases given <;> exact computes_pure trivial
  | error actual message =>
    refine (computes_expectedMessage part message).bind_ofOption fun wanted _ => ?_
    cases wanted with
    | error e => exact computes_pure trivial
    | ok wanted =>
      refine (part actual).bind_ofOption fun given _ => ?_
      cases given <;> exact computes_pure trivial

end Tests

/-- **A test in a frame** comes to what it comes to in the scope, and makes frames of calls only. -/
theorem check_computes (upholds : t.Upholds top (OutcomeAtHome top)) (fuel : Nat) (frame : FrameId)
    (locals : Bindings Value) (c : Check) :
    Computes t top frame locals (check fuel frame c)
      (.ofOption (c.run fun e => (t.evalAtFuel fuel ⟨locals, top⟩ e).finished?)) fun _ => True :=
  computes_runCheck (fun e => (evalAtFuel_computes upholds fuel frame locals e).caught) c

end Framed

end Tyro
