import Tyro.Eval.Fuel
import Tyro.Proofs.Eval.Follows
import Tyro.Proofs.Value.Expr

/-!
# Values that can be written

`Value.Writable s frame` says what the values of a program have in common: a string has no double
quote, a function is what the name that it is printed as is bound to, and a structure has been made
by the constructor of its type, which is a function of this kind. So the expression that a writable
value is printed as has the value again (`Writable.evalAtFuel_toExpr`).

That all values are writable is not quite an invariant of frames: a structure definition may bind a
name that no expression can have, `check-expect` for instance. What is bound to a name is therefore
made of writable values, or is a function under its own name (`Store.Fits`), and it turns out
writable as soon as an expression mentions the name. `Store.Honest` is the invariant, and evaluation
in an honest frame gives writable values only (`Honest.values_of_eval?`).
-/

namespace Tyro

/-! ## Printable parts -/

/-- Expressions are printable if each of them is. -/
theorem Expr.printable_of_mem {es : List Expr} (h : AllPrintable es) : ∀ e ∈ es, e.Printable := by
  induction es with
  | nil => exact List.forall_mem_nil _
  | cons e es ih => exact List.forall_mem_cons.2 ⟨h.1, ih h.2⟩

/-- Clauses are printable if each of their expressions is. -/
theorem Clauses.printable_of_mem {cs : Clauses} (h : cs.Printable) :
    ∀ e ∈ cs.exprs, e.Printable := by
  match cs with
  | .none => exact List.forall_mem_nil _
  | .otherwise answer => exact List.forall_mem_singleton.2 h
  | .clause question answer rest =>
    obtain ⟨asked, answered, others⟩ := h
    exact List.forall_mem_cons.2
      ⟨asked, List.forall_mem_cons.2 ⟨answered, printable_of_mem others⟩⟩

/-- The parts of a printable expression are printable. -/
theorem Expr.Printable.parts {e : Expr} (h : e.Printable) : ∀ part ∈ e.parts, part.Printable := by
  cases e with
  | call function args => exact List.forall_mem_cons.2 ⟨h.1, printable_of_mem h.2⟩
  | ifElse question yes no =>
    obtain ⟨asked, first, second⟩ := h
    exact List.forall_mem_cons.2
      ⟨asked, List.forall_mem_cons.2 ⟨first, List.forall_mem_singleton.2 second⟩⟩
  | cond clauses => exact Clauses.printable_of_mem h.2
  | logical connective operands => exact printable_of_mem h.2
  | _ => exact List.forall_mem_nil _

/-! ## Writable values -/

/-- The value is a function. One that a program defined was defined in the frame, and its body is
printable. -/
inductive Value.IsFunction (frame : FrameId) : Value → Prop
  | builtin (f : Builtin) : IsFunction frame (.builtin f)
  | closure (name : String) (params : List String) {body : Expr} (printable : body.Printable) :
    IsFunction frame (.closure ⟨name, params, body, frame⟩)
  | constructor (type : StructType) : IsFunction frame (.constructor type)
  | accessor (type : StructType) (index : Nat) : IsFunction frame (.accessor type index)
  | predicate (type : StructType) : IsFunction frame (.predicate type)

/-- The value can be written as an expression, in a frame that binds the names of all functions that
are needed to them. -/
inductive Value.Writable (s : Store) (frame : FrameId) : Value → Prop
  | string {content : String} (unquoted : '\x22' ∉ content.toList) :
    Writable s frame (.string content)
  | number (x : Float) : Writable s frame (.number x)
  | boolean (b : Bool) : Writable s frame (.boolean b)
  | function {f : Value} (is : f.IsFunction frame) (word : Word.IsVariable f.render)
    (bound : s.slot? frame f.render = some (.filled (.ok f))) : Writable s frame f
  | struct {type : StructType} {fields : List Value} (maker : Writable s frame (.constructor type))
    (full : fields.length = type.fields.length) (all : ∀ v ∈ fields, Writable s frame v) :
    Writable s frame (.struct type fields)

namespace Value

variable {s t : Store} {frame : FrameId} {v : Value}

/-- Every function of a structure type is a function. -/
theorem isFunction_of_mem_functions {type : StructType} {name : String}
    (h : (name, v) ∈ type.functions) : v.IsFunction frame ∧ v.render = name := by
  obtain ⟨printed, rfl | ⟨i, rfl⟩ | rfl⟩ := type.mem_functions h
  · exact ⟨.constructor type, printed⟩
  · exact ⟨.accessor type i, printed⟩
  · exact ⟨.predicate type, printed⟩

/-- A function is printed as its name. -/
theorem IsFunction.toExpr (h : v.IsFunction frame) : v.toExpr = .name v.render := by
  cases h <;> rw [Value.toExpr, render]

/-- A value stays writable where values are kept. -/
theorem Writable.keeps (h : v.Writable s frame) (keeps : s.Keeps t frame) : v.Writable t frame := by
  induction h with
  | string unquoted => exact .string unquoted
  | number x => exact .number x
  | boolean b => exact .boolean b
  | function is word bound => exact .function is word (keeps _ _ bound)
  | struct maker full all ihMaker ih => exact .struct ihMaker full ih

/-- What is inside a writable value is writable. -/
theorem Writable.of_contains {part : Value} (inside : v.Contains part) (h : v.Writable s frame) :
    part.Writable s frame := by
  induction inside with
  | self v => exact h
  | field mem inside ih =>
    cases h with
    | function is => cases is
    | struct maker full all => exact ih (all _ mem)

/-- A constructor that is writable is a function. -/
theorem Writable.constructor_inv {type : StructType} (h : (constructor type).Writable s frame) :
    Word.IsVariable (constructorName type.name) ∧
      s.slot? frame (constructorName type.name) = some (.filled (.ok (.constructor type))) := by
  cases h with
  | function is word bound =>
    rw [render] at word bound
    exact ⟨word, bound⟩

/-! ## Writing values -/

/-- Values whose expressions are printable have expressions that are. -/
theorem allPrintable_toExprs {vs : List Value} (each : ∀ v ∈ vs, v.toExpr.Printable) :
    Expr.AllPrintable (toExprs vs) := by
  induction vs with
  | nil => trivial
  | cons v vs ih =>
    obtain ⟨first, others⟩ := List.forall_mem_cons.1 each
    exact ⟨first, ih others⟩

/-- The expression of a writable value is printable if the numbers inside are finite. -/
theorem Writable.printable_toExpr (h : v.Writable s frame) (finite : v.IsFinite) :
    v.toExpr.Printable := by
  induction h with
  | string unquoted => exact unquoted
  | number x => exact finite x (.self _)
  | boolean b => trivial
  | function is word bound =>
    rw [is.toExpr]
    exact word
  | struct maker full all ihMaker ih =>
    exact ⟨maker.constructor_inv.1, allPrintable_toExprs fun w mem => ih w mem (finite.field mem)⟩

end Value

namespace Store

variable {s t : Store} {frame : FrameId}

/-- What a name of a home frame is bound to is what an expression of this name comes to. -/
theorem IsHome.lookup_of_slot (home : s.IsHome frame) {name : String}
    {r : Except EvalError Value} (filled : s.slot? frame name = some (.filled r)) :
    (Scope.top frame).lookup s name = r := by
  rw [home.meaning, filled]
  rfl

/-- If each of several values is what its expression evaluates to with some fuel, then with some
fuel all of them are. -/
theorem exists_fuel_all (s : Store) (scope : Scope) {vs : List Value}
    (each : ∀ v ∈ vs, ∃ fuel, s.evalAtFuel fuel scope v.toExpr = .result v) :
    ∃ fuel, Eval.all (fun e => s.evalAtFuel fuel scope e) (Value.toExprs vs) = .result vs := by
  induction vs with
  | nil => exact ⟨0, rfl⟩
  | cons v vs ih =>
    obtain ⟨⟨fuel, first⟩, others⟩ := List.forall_mem_cons.1 each
    obtain ⟨more, rest⟩ := ih others
    have first' : s.evalAtFuel (max fuel more) scope v.toExpr = .result v := by
      rw [evalAtFuel_mono s (Nat.le_max_left fuel more) scope _ (first ▸ nofun), first]
    have agree := evalAtFuel_mono s (Nat.le_max_right fuel more) scope
    have rest' : Eval.all (fun e => s.evalAtFuel (max fuel more) scope e) (Value.toExprs vs) =
        .result vs := by
      rw [Eval.all_agree agree _ (rest ▸ nofun), rest]
    refine ⟨max fuel more, ?_⟩
    rw [Value.toExprs, Eval.all, first', Answer.result_bind, rest']
    rfl

/-- **A writable value is what its expression evaluates to.** -/
theorem IsHome.evalAtFuel_toExpr (home : s.IsHome frame) {v : Value} (h : v.Writable s frame) :
    ∃ fuel, s.evalAtFuel fuel (.top frame) v.toExpr = .result v := by
  induction h with
  | string unquoted => exact ⟨1, by rw [Value.toExpr, evalAtFuel]⟩
  | number x => exact ⟨1, by rw [Value.toExpr, evalAtFuel]⟩
  | boolean b => exact ⟨1, by rw [Value.toExpr, evalAtFuel]⟩
  | function is word bound =>
    refine ⟨1, ?_⟩
    rw [is.toExpr, evalAtFuel, home.lookup_of_slot bound]
    rfl
  | @struct type fields maker full all ihMaker ih =>
    -- The call finds the constructor of this very type, because that one is writable itself.
    obtain ⟨fuel, args⟩ := exists_fuel_all s (.top frame) ih
    refine ⟨fuel + 1, ?_⟩
    have made : Eval.checkCount (constructorName type.name) type.fields.length fields = .ok () := by
      unfold Eval.checkCount
      rw [if_pos (Arity.accepts_exactly.2 full)]
    rw [Value.toExpr, evalAtFuel, home.lookup_of_slot maker.constructor_inv.2]
    change (Eval.all _ _ >>= _) = _
    rw [args]
    change (Answer.ofExcept (Eval.checkCount _ _ _) >>= _) = _
    rw [made]
    rfl

/-! ## Evaluation of printable expressions -/

/-- Writable values correspond to themselves when printable expressions are evaluated. -/
theorem correspondence_writable (s : Store) (frame : FrameId) :
    Correspondence frame frame (fun v w => w = v ∧ v.Writable s frame) Eq Expr.Printable where
  shape := by
    rintro v _ ⟨rfl, writable⟩
    cases writable with
    | string unquoted => exact .string _
    | number x => exact .number x
    | boolean b => exact .boolean b
    | function is word bound =>
      cases is with
      | builtin f => exact .builtin f
      | closure name params printable => exact .closure name params printable
      | constructor type => exact .constructor rfl
      | accessor type index => exact .accessor rfl index
      | predicate type => exact .predicate rfl
    | struct maker full all =>
      exact .struct rfl (List.forall₂_same.2 fun v mem => ⟨rfl, all v mem⟩)
  alike := by
    rintro t _ rfl
    exact ⟨rfl, rfl⟩
  same := by
    rintro t _ t' _ rfl rfl
    exact Iff.rfl
  parts := Expr.Printable.parts
  number x := ⟨rfl, .number x⟩
  boolean b := ⟨rfl, .boolean b⟩
  literal unquoted := ⟨rfl, .string unquoted⟩
  join := by
    -- A double quote in the joined string would be in one of the strings.
    intro contents each
    refine ⟨rfl, .string ?_⟩
    rw [String.toList_join, List.mem_flatMap]
    rintro ⟨content, mem, quoted⟩
    cases (each content mem).2 with
    | string unquoted => exact unquoted quoted
    | function is => cases is
  struct := by
    rintro t _ vs ws ⟨⟨⟩, maker⟩ related full
    obtain ⟨rfl, all⟩ := forall₂_self_iff.1 related
    exact ⟨rfl, .struct maker full all⟩

end Store

/-- The values that a fault reports. -/
def EvalFault.values : EvalFault → List Value
  | .notBoolean given => [given]
  | .wrongKind _ _ given => [given]
  | .wrongStruct _ given => [given]
  | _ => []

/-- The values that an error reports. -/
def EvalError.values (e : EvalError) : List Value := e.fault.values

/-- The values in an outcome: the value that it is, or those that the error reports. -/
def outcomeValues : Except EvalError Value → List Value
  | .ok v => [v]
  | .error e => e.values

namespace Store

variable {s t : Store} {frame : FrameId}

/-- What may be bound to a name: an outcome with writable values, or a function under its own
name. -/
def Fits (s : Store) (frame : FrameId) (name : String) (r : Except EvalError Value) : Prop :=
  (∀ v ∈ outcomeValues r, v.Writable s frame) ∨
    ∃ f : Value, r = .ok f ∧ f.IsFunction frame ∧ f.render = name

/-- What fits a name still does where values are kept. -/
theorem Fits.keeps {name : String} {r : Except EvalError Value} (h : s.Fits frame name r)
    (keeps : s.Keeps t frame) : t.Fits frame name r :=
  h.imp_left fun all v mem => (all v mem).keeps keeps

/-- A home frame in which all names are bound to what fits them. -/
structure Honest (s : Store) (frame : FrameId) : Prop where
  home : s.IsHome frame
  fits : ∀ name r, s.slot? frame name = some (.filled r) → s.Fits frame name r

/-- What a name comes to that an expression can have has writable values. -/
theorem Honest.values_of_lookup (honest : s.Honest frame) {name : String}
    (word : Word.IsVariable name) :
    ∀ v ∈ outcomeValues ((Scope.top frame).lookup s name), v.Writable s frame := by
  rw [honest.home.meaning]
  cases found : s.slot? frame name with
  | none => exact List.forall_mem_nil _
  | some slot =>
    cases slot with
    | reserved => exact List.forall_mem_nil _
    | filled r =>
      -- A function under its own name is writable now that an expression mentions the name.
      rcases honest.fits name r found with all | ⟨f, rfl, is, rfl⟩
      · exact all
      · exact List.forall_mem_singleton.2 (.function is word found)

/-- Errors that report writable values may come of errors that do. -/
theorem tolerant_writable (s : Store) (frame : FrameId) :
    Tolerant (fun v w => w = v ∧ v.Writable s frame)
      fun e _ => ∀ v ∈ e.values, v.Writable s frame := by
  refine ⟨fun e e' corresponds => ?_, fun e all _ => all⟩
  obtain ⟨context, fault⟩ := e
  obtain ⟨context', fault'⟩ := e'
  obtain ⟨-, faults⟩ := corresponds
  cases faults with
  | notBoolean given | wrongKind _ _ given | wrongStruct _ given =>
    exact List.forall_mem_singleton.2 given.2
  | _ => exact List.forall_mem_nil _

/-- In an honest frame, names come to writable values. -/
theorem Honest.namesFollow (honest : s.Honest frame) :
    s.NamesFollow s frame frame (fun v w => w = v ∧ v.Writable s frame) Expr.Printable
      fun e _ => ∀ v ∈ e.values, v.Writable s frame := by
  intro name word
  have values := honest.values_of_lookup word
  generalize (Scope.top frame).lookup s name = r at values ⊢
  cases r with
  | ok v => exact Answer.follows_result ⟨rfl, values v List.mem_cons_self⟩
  | error e => exact values

/-- In an honest frame, printable expressions have writable values wherever the arguments are
writable. -/
theorem Honest.writable_of_evalAtFuel (honest : s.Honest frame) {fuel : Nat}
    {locals : Bindings Value} (args : ∀ name v, locals.get? name = some v → v.Writable s frame)
    {e : Expr} (printable : e.Printable) {v : Value}
    (h : s.evalAtFuel fuel ⟨locals, frame⟩ e = .result v) : v.Writable s frame := by
  have related : locals.Related (fun v w => w = v ∧ v.Writable s frame) locals := by
    intro name
    cases found : locals.get? name with
    | none => exact .none
    | some w => exact .some ⟨rfl, args name w found⟩
  have follows := evalAtFuel_follows (correspondence_writable s frame) (tolerant_writable s frame)
    rfl honest.namesFollow fuel printable related
  rw [h] at follows
  obtain ⟨w, -, -, writable⟩ := follows
  exact writable

/-- **In an honest frame, what a printable expression comes to has writable values only.** -/
theorem Honest.values_of_eval? (honest : s.Honest frame) {fuel : Nat} {e : Expr}
    (printable : e.Printable) {r : Except EvalError Value} (h : s.eval? fuel frame e = some r) :
    ∀ v ∈ outcomeValues r, v.Writable s frame := by
  have c := correspondence_writable s frame
  have tolerant := tolerant_writable s frame
  cases r with
  | ok v =>
    obtain ⟨w, -, -, writable⟩ :=
      eval?_value_follows c tolerant rfl honest.namesFollow printable h
    exact List.forall_mem_singleton.2 writable
  | error err =>
    obtain ⟨-, all, -⟩ := eval?_error_follows c tolerant rfl honest.namesFollow printable h
    exact all

/-! ## Honest frames -/

/-- A frame with the library is honest. -/
theorem honest_newLibrary (s : Store) : s.newLibrary.2.Honest s.newLibrary.1 := by
  refine ⟨s.isHome_newLibrary, fun name r filled => ?_⟩
  obtain ⟨v, same, mem⟩ := slot?_newLibrary filled
  cases same
  rcases mem_library mem with ⟨f, rfl, rfl⟩ | ⟨x, rfl⟩ | struct
  · exact .inr ⟨_, rfl, .builtin f, by rw [Value.render]⟩
  · exact .inl (List.forall_mem_singleton.2 (.number x))
  · exact .inr ⟨v, rfl, Value.isFunction_of_mem_functions struct⟩

/-- Reserving names keeps a frame honest. -/
theorem Honest.reserveAll (honest : s.Honest frame) (names : List String) :
    (s.reserveAll frame names).Honest frame := by
  refine ⟨honest.home.reserveAll names, fun name r filled => ?_⟩
  refine Fits.keeps (honest.fits name r ?_) (keeps_reserveAll honest.home.there names)
  exact slot?_of_reserveAll honest.home.there filled

end Store

end Tyro
