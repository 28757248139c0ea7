import Tyro.Proofs.Expr.Excerpts

/-!
# Plain values and plain errors

A value is plain if the names of the functions and types inside are on one line and the strings
have a property `Q`, those in the bodies of functions included, since a call may bring them to
light. An error is plain if all that its message takes over fits.

Evaluation keeps to plain values and plain errors (`Store.isPlain_evalAtFuel`). The only strings
that it makes are those written in the program and joined ones, so that `Q` has to pass on to joined
strings (`Joins`). The only words that it puts into messages are the names of functions and types
and the words of the expression that fails.
-/

namespace Tyro

open Text

/-- The property passes from strings to the string that they make together. -/
def Joins (Q : String → Prop) : Prop :=
  ∀ contents : List String, (∀ content ∈ contents, Q content) → Q (String.join contents)

variable {frame : FrameId} {Q : String → Prop}

/-! ## Values -/

/-- The names of the structure type are on one line. -/
structure StructType.IsPlain (type : StructType) : Prop where
  name : IsLine type.name
  fields : ∀ field ∈ type.fields, IsLine field

/-- Each single field of a plain type has a name on one line. -/
theorem StructType.IsPlain.field {type : StructType} (plain : type.IsPlain) (index : Nat) :
    IsLine (type.field index) := by
  unfold StructType.field
  rw [List.getD_eq_getElem?_getD]
  cases found : type.fields[index]? with
  | none => exact (by decide : IsLine "")
  | some field => exact plain.fields field (List.mem_of_getElem? found)

/-- All names that the functions of a structure type have are on one line. -/
theorem isLine_constructorName {struct : String} (line : IsLine struct) :
    IsLine (constructorName struct) := by
  unfold constructorName
  exact isLine_append.2 ⟨by decide, line⟩

theorem isLine_accessorName {struct field : String} (line : IsLine struct) (line' : IsLine field) :
    IsLine (accessorName struct field) := by
  unfold accessorName
  exact isLine_append.2 ⟨isLine_append.2 ⟨line, by decide⟩, line'⟩

theorem isLine_predicateName {struct : String} (line : IsLine struct) :
    IsLine (predicateName struct) := by
  unfold predicateName
  exact isLine_append.2 ⟨line, by decide⟩

/-- The function has names on one line and a plain body, and was defined in the frame. -/
structure Closure.IsPlain (frame : FrameId) (Q : String → Prop) (f : Closure) : Prop where
  home : f.home = frame
  name : IsLine f.name
  params : ∀ param ∈ f.params, IsLine param
  body : f.body.IsPlain Q

/-- All functions and types inside the value have names on one line, all strings have the property,
and all functions that a program defined were defined in the frame. -/
inductive Value.IsPlain (frame : FrameId) (Q : String → Prop) : Value → Prop
  | string {content : String} (holds : Q content) : IsPlain frame Q (.string content)
  | number (x : Float) : IsPlain frame Q (.number x)
  | boolean (b : Bool) : IsPlain frame Q (.boolean b)
  | builtin (f : Builtin) : IsPlain frame Q (.builtin f)
  | closure {f : Closure} (function : f.IsPlain frame Q) : IsPlain frame Q (.closure f)
  | struct {type : StructType} {fields : List Value} (names : type.IsPlain)
    (all : ∀ v ∈ fields, IsPlain frame Q v) : IsPlain frame Q (.struct type fields)
  | constructor {type : StructType} (names : type.IsPlain) : IsPlain frame Q (.constructor type)
  | accessor {type : StructType} (names : type.IsPlain) (index : Nat) :
    IsPlain frame Q (.accessor type index)
  | predicate {type : StructType} (names : type.IsPlain) : IsPlain frame Q (.predicate type)

/-- The words and strings that the text of a value is made of. -/
def Value.excerpts (v : Value) : List Excerpt := v.toExpr.excerpts

/-- The text of a value is put together from its excerpts. -/
theorem Value.takes_render (v : Value) : Takes v.render v.excerpts := by
  rw [← render_toExpr]
  exact v.toExpr.takes_render

/-- The excerpts of a structure are the name of its constructor and those of the fields. -/
theorem Value.excerpts_struct (type : StructType) (fields : List Value) :
    (struct type fields).excerpts =
      .word (constructorName type.name) :: fields.flatMap excerpts := by
  have inside : Expr.excerptsOf (toExprs fields) = fields.flatMap excerpts := by
    induction fields with
    | nil => rfl
    | cons v vs ih => rw [toExprs, Expr.excerptsOf, ih, List.flatMap_cons, excerpts]
  rw [excerpts, toExpr, Expr.excerpts, inside]

/-- The excerpts of a plain value fit. -/
theorem Value.IsPlain.fits {v : Value} (plain : v.IsPlain frame Q) :
    ∀ x ∈ v.excerpts, x.Fits Q := by
  have word {name : String} (line : IsLine name) :
      ∀ x ∈ (Expr.name name).excerpts, x.Fits Q := by
    rw [Expr.excerpts]
    exact List.forall_mem_singleton.2 line
  induction plain with
  | string holds => exact List.forall_mem_singleton.2 holds
  | number x => exact List.forall_mem_nil _
  | boolean b => exact List.forall_mem_nil _
  | builtin f => exact word (isLine_builtin f)
  | closure function => exact word function.name
  | struct names all ih =>
    rw [excerpts_struct]
    exact List.forall_mem_cons.2
      ⟨isLine_constructorName names.name, List.forall_mem_flatMap.2 ih⟩
  | constructor names => exact word (isLine_constructorName names.name)
  | accessor names index => exact word (isLine_accessorName names.name (names.field index))
  | predicate names => exact word (isLine_predicateName names.name)

/-- The functions of a plain structure type are plain. -/
theorem StructType.IsPlain.of_mem_functions {type : StructType} (plain : type.IsPlain)
    {name : String} {v : Value} (mem : (name, v) ∈ type.functions) : v.IsPlain frame Q := by
  obtain ⟨-, rfl | ⟨i, rfl⟩ | rfl⟩ := type.mem_functions mem
  · exact .constructor plain
  · exact .accessor plain i
  · exact .predicate plain

/-- The functions of a plain structure type are bound to names on one line. -/
theorem StructType.IsPlain.isLine_of_mem_functions {type : StructType} (plain : type.IsPlain)
    {name : String} {v : Value} (mem : (name, v) ∈ type.functions) : IsLine name := by
  have bound : name ∈ structNames type.name type.fields := by
    rw [← type.map_fst_functions]
    exact List.mem_map_of_mem mem
  simp only [structNames, List.cons_append, List.mem_cons, List.mem_append, List.mem_map,
    List.not_mem_nil, or_false] at bound
  rcases bound with rfl | ⟨field, among, rfl⟩ | rfl
  · exact isLine_constructorName plain.name
  · exact isLine_accessorName plain.name (plain.fields field among)
  · exact isLine_predicateName plain.name

/-- The library is plain. -/
theorem Store.isPlain_library {serial : Nat} {name : String} {v : Value}
    (mem : (name, v) ∈ library ⟨serial, "posn", ["x", "y"]⟩) : v.IsPlain frame Q := by
  rcases mem_library mem with ⟨f, -, rfl⟩ | ⟨x, rfl⟩ | struct
  · exact .builtin f
  · exact .number x
  · have name : IsLine "posn" := by decide
    have fields : ∀ field ∈ ["x", "y"], IsLine field := by decide
    have point : StructType.IsPlain ⟨serial, "posn", ["x", "y"]⟩ := ⟨name, fields⟩
    exact point.of_mem_functions struct

/-! ## Errors -/

/-- The words and strings that the message of a fault is made of. -/
def EvalFault.excerpts : EvalFault → List Excerpt
  | .notBoolean given => given.excerpts
  | .wrongKind _ _ given => given.excerpts
  | .wrongStruct wanted given => .word wanted :: given.excerpts
  | _ => []

/-- The words and strings that the message of an error is made of. -/
def EvalError.excerpts (e : EvalError) : List Excerpt := e.context.excerpts ++ e.fault.excerpts

/-- The phrase for a kind of argument is on one line. -/
theorem ArgKind.isLine_phrase (kind : ArgKind) : IsLine kind.phrase := by
  cases kind <;> exact isLine_ofList (by decide)

/-- The message of a fault is put together from its excerpts. -/
theorem EvalFault.takes_message (fault : EvalFault) : Takes fault.message fault.excerpts := by
  cases fault with
  | notBoolean given => exact .afterPhrase (by decide) given.takes_render
  | wrongKind wanted index given =>
    have kind : Takes ("expects " ++ wanted.phrase ++ " as ") [] :=
      (Takes.afterPhrase (by decide) (.fixed wanted.isLine_phrase)).beforePhrase (by decide)
    have place : Takes ("expects " ++ wanted.phrase ++ " as " ++ ordinal (index + 1) ++
        " argument, given ") [] :=
      (kind.before (isLine_ordinal (index + 1))).beforePhrase (by decide)
    exact place.append given.takes_render
  | wrongStruct wanted given =>
    have front : Takes ("expects a " ++ wanted ++ ", given ") [.word wanted] :=
      (Takes.afterPhrase (by decide) (.single (.word wanted))).beforePhrase (by decide)
    exact front.append given.takes_render
  | arity allowed count => exact .fixed (isLine_complaint allowed count)
  | _ => exact .phrase (by decide)

/-- The message of an error is put together from its excerpts. -/
theorem EvalError.takes_message (e : EvalError) : Takes e.message e.excerpts :=
  (e.context.takes_render.beforePhrase (by decide)).append e.fault.takes_message

/-- All that the message of the fault takes over fits. -/
def EvalFault.IsPlain (Q : String → Prop) (fault : EvalFault) : Prop :=
  ∀ x ∈ fault.excerpts, x.Fits Q

/-- All that the message of the error takes over fits. -/
def EvalError.IsPlain (Q : String → Prop) (e : EvalError) : Prop := ∀ x ∈ e.excerpts, x.Fits Q

/-- An error is plain if the expression is that it is reported against, and the fault fits. -/
theorem EvalError.isPlain_of {context : Expr} {fault : EvalFault} (plain : context.IsPlain Q)
    (fits : fault.IsPlain Q) : EvalError.IsPlain Q ⟨context, fault⟩ :=
  List.forall_mem_append.2 ⟨plain, fits⟩

/-- An error about a name on one line is plain if the fault fits. -/
theorem EvalError.isPlain_about {name : String} {fault : EvalFault} (line : IsLine name)
    (fits : fault.IsPlain Q) : (EvalError.about name fault).IsPlain Q :=
  isPlain_of (List.forall_mem_singleton.2 line) fits

/-- A plain value, or a plain error that came instead. -/
def OutcomePlain (frame : FrameId) (Q : String → Prop) : Except EvalError Value → Prop :=
  Complies (EvalError.IsPlain Q) (Value.IsPlain frame Q)

/-- The result satisfies `R`, or the error is plain. -/
def Answer.IsPlain {α : Type} (Q : String → Prop) (R : α → Prop) : Answer α → Prop
  | .result x => R x
  | .error e => e.IsPlain Q
  | .outOfFuel => True

namespace Answer

variable {α β : Type} {R : α → Prop} {R' : β → Prop}

/-- Answers are chained plainly. -/
theorem IsPlain.bind {a : Answer α} {next : α → Answer β} (first : a.IsPlain Q R)
    (rest : ∀ x, R x → (next x).IsPlain Q R') : (a >>= next).IsPlain Q R' := by
  cases a with
  | result x => exact rest x first
  | error e => exact first
  | outOfFuel => trivial

/-- A plain outcome is a plain answer. -/
theorem isPlain_ofExcept {r : Except EvalError Value} (plain : OutcomePlain frame Q r) :
    (ofExcept r).IsPlain Q (Value.IsPlain frame Q) := by
  cases r <;> exact plain

/-- What becomes of a plain answer is a plain outcome. -/
theorem IsPlain.finished? {a : Answer Value} (plain : a.IsPlain Q (Value.IsPlain frame Q))
    {r : Except EvalError Value} (finished : a.finished? = some r) : OutcomePlain frame Q r := by
  cases a <;> cases finished <;> exact plain

end Answer

/-! ## Built-in functions -/

namespace Builtin

/-- The operation makes plain values of what it computes from, or refuses with a fault that fits. -/
def Operation.IsPlain (frame : FrameId) (Q : String → Prop) : Operation → Prop
  | .onNumbers compute => ∀ xs, Complies (EvalFault.IsPlain Q) (Value.IsPlain frame Q) (compute xs)
  | .onStrings compute => ∀ ss, (∀ s ∈ ss, Q s) → (compute ss).IsPlain frame Q
  | .onBooleans compute => ∀ bs, (compute bs).IsPlain frame Q
  | .onValues compute => ∀ vs, (compute vs).IsPlain frame Q

/-- Plain arguments are viewed as what they are, or one of them is refused. -/
theorem complies_viewAll {α : Type} {view : Value → Option α} (R : α → Prop)
    (viewed : ∀ v x, v.IsPlain frame Q → view v = some x → R x) (wanted : ArgKind) (index : Nat)
    {args : List Value} (plain : ∀ v ∈ args, v.IsPlain frame Q) :
    Complies (EvalFault.IsPlain Q) (fun xs => ∀ x ∈ xs, R x) (viewAll view wanted index args) := by
  induction args generalizing index with
  | nil => exact List.forall_mem_nil _
  | cons v vs ih =>
    obtain ⟨first, others⟩ := List.forall_mem_cons.1 plain
    unfold viewAll
    cases is : view v with
    | none => exact first.fits
    | some x =>
      have rest := ih (index + 1) others
      exact rest.map fun xs all => List.forall_mem_cons.2 ⟨viewed v x first is, all⟩

/-- A plain operation makes plain values of plain arguments. -/
theorem Operation.IsPlain.run {op : Operation} (h : op.IsPlain frame Q) {args : List Value}
    (plain : ∀ v ∈ args, v.IsPlain frame Q) :
    Complies (EvalFault.IsPlain Q) (Value.IsPlain frame Q) (op.run args) := by
  have anything {α : Type} (view : Value → Option α) (wanted : ArgKind) :
      Complies (EvalFault.IsPlain Q) (fun xs => ∀ x ∈ xs, True) (viewAll view wanted 0 args) :=
    complies_viewAll (fun _ => True) (fun _ _ _ _ => trivial) wanted 0 plain
  cases op with
  | onNumbers compute =>
    exact (anything Value.number? .number).bind fun xs _ => h xs
  | onStrings compute =>
    have content (v : Value) (s : String) (here : v.IsPlain frame Q) (is : v.string? = some s) :
        Q s := by
      cases here <;> cases is
      assumption
    exact (complies_viewAll Q content .string 0 plain).map fun ss all => h ss all
  | onBooleans compute =>
    exact (anything Value.boolean? .boolean).map fun bs _ => h bs
  | onValues compute => exact h args

/-- A quotient is a number, or it is refused for a zero. -/
theorem complies_quotient (xs : List Float) :
    Complies (EvalFault.IsPlain Q) (fun _ => True) (quotient xs) := by
  have divided (x : Float) (ys : List Float) :
      Complies (EvalFault.IsPlain Q) (fun _ => True) (divideAll x ys) := by
    rcases divideAll_cases x ys with ⟨z, result⟩ | zero
    · rw [result]
      trivial
    · rw [zero]
      exact List.forall_mem_nil _
  unfold quotient
  split
  · trivial
  · exact divided 1 _
  · exact divided _ _

/-- A root is a number, or the number is refused. -/
theorem complies_root (xs : List Float) :
    Complies (EvalFault.IsPlain Q) (Value.IsPlain frame Q) (root xs) := by
  unfold root
  dsimp only
  split
  · exact List.forall_mem_nil _
  · exact .number _

/-- All operations are plain. Strings are only joined. -/
theorem isPlain_operation (joins : Joins Q) (f : Builtin) : f.operation.IsPlain frame Q := by
  cases f with
  | add | subtract | multiply | sine | cosine | absolute => exact fun _ => .number _
  | divide => exact fun xs => (complies_quotient xs).map fun x _ => .number x
  | squareRoot => exact complies_root
  | equal | less | greater | atMost | atLeast | not => exact fun _ => .boolean _
  | stringAppend => exact fun ss all => .string (joins ss all)
  | stringLength => exact fun _ _ => .number _
  | stringEqual => exact fun _ _ => .boolean _
  | same | isNumber | isString | isBoolean => exact fun _ => .boolean _

/-- **Built-in functions have plain outcomes** for plain arguments. -/
theorem isPlain_apply (joins : Joins Q) (f : Builtin) {args : List Value}
    (plain : ∀ v ∈ args, v.IsPlain frame Q) : OutcomePlain frame Q (f.apply args) := by
  have complies := (isPlain_operation joins f).run plain
  unfold apply
  split
  · generalize f.operation.run args = r at complies ⊢
    cases r with
    | ok v => exact complies
    | error fault => exact EvalError.isPlain_about (isLine_builtin f) complies
  · exact EvalError.isPlain_about (isLine_builtin f) (List.forall_mem_nil _)

end Builtin

/-! ## Parts -/

namespace Eval

section Parts

variable {eval : Expr → Answer Value} {form : Expr} (blamed : form.IsPlain Q)

/-- The values of several expressions are plain if each is. -/
theorem isPlain_all {es : List Expr}
    (part : ∀ e ∈ es, (eval e).IsPlain Q (Value.IsPlain frame Q)) :
    (all eval es).IsPlain Q fun vs => ∀ v ∈ vs, v.IsPlain frame Q := by
  induction es with
  | nil => exact List.forall_mem_nil _
  | cons e es ih =>
    obtain ⟨first, others⟩ := List.forall_mem_cons.1 part
    refine first.bind fun v here => ?_
    refine (ih others).bind fun vs rest => ?_
    exact List.forall_mem_cons.2 ⟨here, rest⟩

include blamed

/-- A question has a truth value or fails plainly. -/
theorem isPlain_question {q : Expr} (part : (eval q).IsPlain Q (Value.IsPlain frame Q)) :
    (question eval form q).IsPlain Q fun _ => True := by
  refine part.bind fun v here => ?_
  cases v.boolean? with
  | some b => trivial
  | none => exact EvalError.isPlain_of blamed here.fits

/-- Clauses have plain answers if their expressions have. -/
theorem isPlain_clauses {cs : Clauses}
    (part : ∀ e ∈ cs.exprs, (eval e).IsPlain Q (Value.IsPlain frame Q)) :
    (clauses eval form cs).IsPlain Q (Value.IsPlain frame Q) := by
  match cs with
  | .none => exact EvalError.isPlain_of blamed (List.forall_mem_nil _)
  | .otherwise answer => exact part answer List.mem_cons_self
  | .clause q answer rest =>
    obtain ⟨asked, part⟩ := List.forall_mem_cons.1 part
    obtain ⟨answered, others⟩ := List.forall_mem_cons.1 part
    refine (isPlain_question blamed asked).bind fun b _ => ?_
    cases b with
    | true => exact answered
    | false => exact isPlain_clauses others

/-- Logical forms have plain values if their operands have. -/
theorem isPlain_operands (connective : Connective) {es : List Expr}
    (part : ∀ e ∈ es, (eval e).IsPlain Q (Value.IsPlain frame Q)) :
    (operands eval form connective es).IsPlain Q (Value.IsPlain frame Q) := by
  induction es with
  | nil => exact .boolean _
  | cons e es ih =>
    obtain ⟨first, others⟩ := List.forall_mem_cons.1 part
    refine (isPlain_question blamed first).bind fun b _ => ?_
    split
    · exact .boolean _
    · exact ih others

end Parts

/-! ## Applying functions -/

/-- A number of arguments is refused plainly under a name on one line. -/
theorem isPlain_checkCount {name : String} (line : IsLine name) (count : Nat) (args : List Value) :
    (Answer.ofExcept (checkCount name count args)).IsPlain Q fun _ => True := by
  unfold checkCount
  split
  · trivial
  · exact EvalError.isPlain_about line (List.forall_mem_nil _)

/-- The first argument is plain if all arguments are. -/
theorem isPlain_headD {args : List Value} (plain : ∀ v ∈ args, v.IsPlain frame Q) :
    (args.headD default).IsPlain frame Q := by
  cases args with
  | nil => exact .boolean false
  | cons v vs => exact plain v List.mem_cons_self

/-- The field of a plain structure is plain, and what is no structure of the type is refused under
plain names. -/
theorem isPlain_access {type : StructType} (names : type.IsPlain) (index : Nat) {args : List Value}
    (plain : ∀ v ∈ args, v.IsPlain frame Q) : OutcomePlain frame Q (access type index args) := by
  have given := isPlain_headD plain
  have line := isLine_accessorName names.name (names.field index)
  unfold access checkCount
  generalize accessorName type.name (type.field index) = name at line
  have refused : OutcomePlain frame Q
      (.error (.about name (.wrongStruct type.name (args.headD default)))) :=
    EvalError.isPlain_about line (List.forall_mem_cons.2 ⟨names.name, given.fits⟩)
  split
  · generalize args.headD default = v at given refused
    cases given with
    | @struct type' fields _ all =>
      dsimp only
      split
      · cases found : fields[index]? with
        | some v => exact all v (List.mem_of_getElem? found)
        | none => exact refused
      · exact refused
    | _ => exact refused
  · exact EvalError.isPlain_about line (List.forall_mem_nil _)

/-- **A plain function has plain answers** for plain arguments, if its body has. -/
theorem isPlain_apply (joins : Joins Q) {s : Store} {run : Scope → Expr → Answer Value}
    {f : Value} (function : f.IsPlain frame Q) {args : List Value}
    (plain : ∀ v ∈ args, v.IsPlain frame Q)
    (body : ∀ g, f = .closure g → (run ⟨.ofList (g.params.zip args), g.home⟩ g.body).IsPlain Q
      (Value.IsPlain frame Q))
    {call : Expr} (blamed : call.IsPlain Q) :
    (apply s run f args call).IsPlain Q (Value.IsPlain frame Q) := by
  cases function with
  | builtin f => exact Answer.isPlain_ofExcept (f.isPlain_apply joins plain)
  | @closure f defined =>
    refine (isPlain_checkCount defined.name _ args).bind fun _ _ => ?_
    split
    · exact body f rfl
    · exact EvalError.isPlain_about defined.name (List.forall_mem_nil _)
  | constructor names =>
    refine (isPlain_checkCount (isLine_constructorName names.name) _ args).bind fun _ _ => ?_
    exact .struct names plain
  | accessor names index => exact Answer.isPlain_ofExcept (isPlain_access names index plain)
  | predicate names =>
    refine (isPlain_checkCount (isLine_predicateName names.name) _ args).bind fun _ _ => ?_
    exact .boolean _
  | _ => exact EvalError.isPlain_of blamed (List.forall_mem_nil _)

end Eval

/-! ## The evaluator -/

namespace Store

variable {s : Store} (home : s.IsHome frame)
  (stored : ∀ name r, s.slot? frame name = some (.filled r) → OutcomePlain frame Q r)

include home stored

/-- A name on one line comes to something plain, among plain arguments. -/
theorem isPlain_lookup {locals : Bindings Value}
    (args : ∀ name v, locals.get? name = some v → v.IsPlain frame Q) {name : String}
    (line : IsLine name) : OutcomePlain frame Q (Scope.lookup ⟨locals, frame⟩ s name) := by
  unfold Scope.lookup
  dsimp only
  cases argument : locals.get? name with
  | some v => exact args name v argument
  | none =>
    dsimp only
    rw [home.lookup]
    cases found : s.slot? frame name with
    | none => exact EvalError.isPlain_about line (List.forall_mem_nil _)
    | some slot =>
      cases slot with
      | reserved => exact EvalError.isPlain_about line (List.forall_mem_nil _)
      | filled r => exact stored name r found

/-- **Plain expressions have plain answers** in a frame in which all that is stored is plain, among
plain arguments. -/
theorem isPlain_evalAtFuel (joins : Joins Q) (fuel : Nat) {locals : Bindings Value}
    (args : ∀ name v, locals.get? name = some v → v.IsPlain frame Q) {e : Expr}
    (plain : e.IsPlain Q) :
    (s.evalAtFuel fuel ⟨locals, frame⟩ e).IsPlain Q (Value.IsPlain frame Q) := by
  induction fuel generalizing locals e with
  | zero => trivial
  | succ fuel ih =>
    have part : ∀ part ∈ e.parts,
        (s.evalAtFuel fuel ⟨locals, frame⟩ part).IsPlain Q (Value.IsPlain frame Q) :=
      fun part mem => ih args (plain.part mem)
    cases e with
    | string content => exact .string (plain _ List.mem_cons_self)
    | number value => exact .number value
    | boolean value => exact .boolean value
    | name word =>
      exact Answer.isPlain_ofExcept (isPlain_lookup home stored args (plain _ List.mem_cons_self))
    | template dots => exact EvalError.isPlain_of plain (List.forall_mem_nil _)
    | call function operands =>
      have line : IsLine function := plain _ List.mem_cons_self
      have found := Answer.isPlain_ofExcept (isPlain_lookup home stored args line)
      refine found.bind fun f function => ?_
      have values := Eval.isPlain_all (List.forall_mem_cons.1 part).2
      refine values.bind fun vs all => ?_
      refine Eval.isPlain_apply joins function all ?_ plain
      rintro g rfl
      cases function with
      | closure defined =>
        -- the body is evaluated in the same frame, with the arguments in place of the old ones
        rw [defined.home]
        refine ih (fun name v bound => ?_) defined.body
        exact all v (List.of_mem_zip (Bindings.mem_of_get?_ofList bound)).2
    | ifElse q yes no =>
      obtain ⟨asked, part⟩ := List.forall_mem_cons.1 part
      obtain ⟨whenTrue, part⟩ := List.forall_mem_cons.1 part
      refine (Eval.isPlain_question plain asked).bind fun b _ => ?_
      cases b with
      | true => exact whenTrue
      | false => exact part no List.mem_cons_self
    | cond cs => exact Eval.isPlain_clauses plain part
    | logical connective es => exact Eval.isPlain_operands plain connective part

/-- Plain expressions come to plain outcomes at the top level of such a frame. -/
theorem isPlain_eval? (joins : Joins Q) {fuel : Nat} {e : Expr} (plain : e.IsPlain Q)
    {r : Except EvalError Value} (h : s.eval? fuel frame e = some r) : OutcomePlain frame Q r := by
  have noArgs : ∀ name v, (Bindings.empty : Bindings Value).get? name = some v →
      v.IsPlain frame Q := by
    intro name v bound
    rw [Bindings.get?_empty] at bound
    cases bound
  exact (isPlain_evalAtFuel home stored joins fuel noArgs plain).finished? h

end Store

end Tyro
