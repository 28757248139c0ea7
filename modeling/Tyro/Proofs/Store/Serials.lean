import Tyro.Proofs.Program.Definitions
import Tyro.Proofs.Store.Growth

/-!
# Serial numbers

A structure definition takes the next serial number for the type that it makes. The number only
grows (`nextSerial_le_of_runForms`), so that two definitions of one run make different types, and no
value of any moment has a type inside that was not made by then: `Value.TypesBelow` is what holds of
the values, `Store.Numbered` is the invariant, and it is kept by all steps of a run.

`Store.Arises` has the values that can come up at a moment, also in the calls of functions.
-/

namespace Tyro

/-! ## Values -/

/-- All structure types in the value have serial numbers below a bound. -/
inductive Value.TypesBelow (bound : Nat) : Value → Prop
  | string (content : String) : TypesBelow bound (.string content)
  | number (value : Float) : TypesBelow bound (.number value)
  | boolean (value : Bool) : TypesBelow bound (.boolean value)
  | builtin (function : Builtin) : TypesBelow bound (.builtin function)
  | closure (function : Closure) : TypesBelow bound (.closure function)
  | struct {type : StructType} {fields : List Value} (below : type.serial < bound)
    (all : ∀ v ∈ fields, TypesBelow bound v) : TypesBelow bound (.struct type fields)
  | constructor {type : StructType} (below : type.serial < bound) :
    TypesBelow bound (.constructor type)
  | accessor {type : StructType} (below : type.serial < bound) (index : Nat) :
    TypesBelow bound (.accessor type index)
  | predicate {type : StructType} (below : type.serial < bound) :
    TypesBelow bound (.predicate type)

namespace Value

variable {bound bound' : Nat}

/-- A higher bound is one, too. -/
theorem TypesBelow.mono (le : bound ≤ bound') {v : Value} (h : v.TypesBelow bound) :
    v.TypesBelow bound' := by
  induction h with
  | string content => exact .string content
  | number x => exact .number x
  | boolean b => exact .boolean b
  | builtin f => exact .builtin f
  | closure f => exact .closure f
  | struct below _ ih => exact .struct (Nat.lt_of_lt_of_le below le) ih
  | constructor below => exact .constructor (Nat.lt_of_lt_of_le below le)
  | accessor below index => exact .accessor (Nat.lt_of_lt_of_le below le) index
  | predicate below => exact .predicate (Nat.lt_of_lt_of_le below le)

/-- Evaluation makes no types. -/
theorem hereditary_typesBelow (bound : Nat) : Hereditary (TypesBelow bound) where
  string := .string
  number := .number
  boolean := .boolean
  fields := by
    rintro type vs (_ | _ | _ | _ | _ | ⟨-, all⟩)
    exact all
  struct := by
    rintro type vs (_ | _ | _ | _ | _ | _ | below) - all
    exact .struct below all

/-- The functions of a structure type have no other type inside. -/
theorem typesBelow_functions {type : StructType} (below : type.serial < bound) {name : String}
    {v : Value} (h : (name, v) ∈ type.functions) : v.TypesBelow bound := by
  obtain ⟨-, rfl | ⟨i, rfl⟩ | rfl⟩ := type.mem_functions h
  · exact .constructor below
  · exact .accessor below i
  · exact .predicate below

end Value

namespace Store

variable {s t : Store} {frame : FrameId} {fuel : Nat}

/-! ## The next number -/

/-- Filling names makes no structure type. -/
theorem nextSerial_fillAll (s : Store) (frame : FrameId) (entries : List (String × Value)) :
    (s.fillAll frame entries).2.nextSerial = s.nextSerial := by
  induction entries generalizing s with
  | nil => rfl
  | cons entry entries ih =>
    obtain ⟨name, v⟩ := entry
    unfold fillAll
    cases filled : s.fill frame name (.ok v) with
    | error e => exact ih s
    | ok s' =>
      obtain ⟨-, rfl⟩ := fill_eq_ok_iff.1 filled
      exact ih _

/-- Binding a name makes no structure type. -/
theorem Binds.nextSerial {name : String} {result : Except EvalError Value} {r : FormResult}
    (h : s.Binds frame name result r t) : t.nextSerial = s.nextSerial := by
  cases h <;> rfl

/-- A structure definition takes one number, whether it binds its names or not. -/
theorem nextSerial_of_struct {name : String} {fields : List String} {r : FormResult}
    (h : s.runDefinition fuel frame (.struct name fields) = some (r, t)) :
    t.nextSerial = s.nextSerial + 1 := by
  rw [runDefinition_struct] at h
  cases h
  exact nextSerial_fillAll ..

/-- The number does not fall in a definition. -/
theorem nextSerial_le_of_runDefinition {d : Definition} {r : FormResult}
    (h : s.runDefinition fuel frame d = some (r, t)) : s.nextSerial ≤ t.nextSerial := by
  cases d with
  | constant name body =>
    obtain ⟨result, -, binds⟩ := runDefinition_constant h
    exact Nat.le_of_eq binds.nextSerial.symm
  | function name params body => exact Nat.le_of_eq (runDefinition_function h).nextSerial.symm
  | struct name fields =>
    rw [nextSerial_of_struct h]
    exact Nat.le_succ _

/-- The number does not fall in a form. -/
theorem nextSerial_le_of_runForm {form : Form} {pending : Pending}
    (h : s.runForm fuel frame form = some (pending, t)) : s.nextSerial ≤ t.nextSerial := by
  cases form with
  | definition d =>
    obtain ⟨⟨r, after⟩, defined, built⟩ := Option.bind_eq_some_iff.1 h
    cases built
    exact nextSerial_le_of_runDefinition defined
  | expression e =>
    obtain ⟨result, -, built⟩ := Option.bind_eq_some_iff.1 h
    cases result <;> cases built <;> exact Nat.le_refl _
  | check | malformed =>
    cases h
    exact Nat.le_refl _

/-- The number does not fall in the second pass. -/
theorem nextSerial_le_of_runForms {forms : List Form} {pendings : List Pending}
    (h : s.runForms fuel frame forms = some (pendings, t)) : s.nextSerial ≤ t.nextSerial := by
  induction forms generalizing s pendings with
  | nil =>
    cases h
    exact Nat.le_refl _
  | cons form forms ih =>
    obtain ⟨first, middle, rest, now, later, -⟩ := runForms_cons h
    exact Nat.le_trans (nextSerial_le_of_runForm now) (ih later)

/-! ## What comes up at a moment -/

/-- The value can come up while the store is as it is: an expression has it, at the top level or in
a call whose arguments can come up themselves. -/
inductive Arises (s : Store) (frame : FrameId) : Value → Prop
  | intro {locals : Bindings Value} {fuel : Nat} {e : Expr} {v : Value}
    (args : ∀ name w, locals.get? name = some w → Arises s frame w)
    (evaluated : s.evalAtFuel fuel ⟨locals, frame⟩ e = .result v) : Arises s frame v

/-- What is hereditary and holds of all values in a home frame holds of all that can come up. -/
theorem IsHome.hereditary_of_arises (home : s.IsHome frame) {Q : Value → Prop}
    (hereditary : Value.Hereditary Q)
    (values : ∀ name v, s.slot? frame name = some (.filled (.ok v)) → Q v) {v : Value}
    (h : s.Arises frame v) : v.AtHome frame ∧ Q v := by
  induction h with
  | intro _ evaluated ih => exact home.hereditary_evalAtFuel hereditary values ih evaluated

/-- The value of an expression at the top level can come up. -/
theorem arises_of_eval? {e : Expr} {v : Value} (h : s.eval? fuel frame e = some (.ok v)) :
    s.Arises frame v :=
  .intro (fun _ _ absent => by cases absent) (Answer.finished?_eq_ok_iff.1 h)

/-! ## The invariant -/

/-- A home frame in which no value has a type inside whose number has not been given yet. -/
structure Numbered (s : Store) (frame : FrameId) : Prop where
  home : s.IsHome frame
  values : ∀ name v, s.slot? frame name = some (.filled (.ok v)) → v.TypesBelow s.nextSerial

/-- In a numbered frame, no value comes up that has a type inside whose number has not been given.
-/
theorem Numbered.typesBelow_of_arises (numbered : s.Numbered frame) {v : Value}
    (h : s.Arises frame v) : v.TypesBelow s.nextSerial :=
  (numbered.home.hereditary_of_arises (Value.hereditary_typesBelow _) numbered.values h).2

/-- A frame with the library is numbered: points are of the type that was made with it. -/
theorem numbered_newLibrary (s : Store) : s.newLibrary.2.Numbered s.newLibrary.1 := by
  refine ⟨isHome_newLibrary s, fun name v filled => ?_⟩
  obtain ⟨w, same, mem⟩ := slot?_newLibrary filled
  cases same
  rcases mem_library mem with ⟨f, -, rfl⟩ | ⟨x, rfl⟩ | struct
  · exact .builtin f
  · exact .number x
  · exact Value.typesBelow_functions (Nat.lt_succ_self s.nextSerial) struct

/-- Reserving names keeps the frame numbered. -/
theorem Numbered.reserveAll (numbered : s.Numbered frame) (names : List String) :
    (s.reserveAll frame names).Numbered frame := by
  refine ⟨numbered.home.reserveAll names, fun name v filled => ?_⟩
  rw [nextSerial_reserveAll]
  exact numbered.values name v (slot?_of_reserveAll numbered.home.there filled)

/-- What a definition has for its names are values whose types have got their numbers after it. -/
theorem Numbered.typesBelow_of_entries (numbered : s.Numbered frame) {d : Definition}
    {r : FormResult} (h : s.runDefinition fuel frame d = some (r, t))
    {entries : List (String × Except EvalError Value)}
    (has : s.entries? fuel frame d = some entries) {name : String} {v : Value}
    (mem : (name, .ok v) ∈ entries) : v.TypesBelow t.nextSerial := by
  cases d with
  | constant first body =>
    obtain ⟨result, evaluated, built⟩ := Option.bind_eq_some_iff.1 has
    cases built
    cases List.mem_singleton.1 mem
    exact (numbered.typesBelow_of_arises (arises_of_eval? evaluated)).mono
      (nextSerial_le_of_runDefinition h)
  | function first params body =>
    cases has
    cases List.mem_singleton.1 mem
    exact .closure _
  | struct struct fields =>
    cases has
    obtain ⟨⟨other, w⟩, inside, same⟩ := List.mem_map.1 mem
    cases same
    refine Value.typesBelow_functions ?_ inside
    rw [nextSerial_of_struct h]
    exact Nat.lt_succ_self _

/-- A definition keeps the frame numbered. -/
theorem Numbered.runDefinition (numbered : s.Numbered frame) {d : Definition} {r : FormResult}
    (h : s.runDefinition fuel frame d = some (r, t)) : t.Numbered frame := by
  refine ⟨numbered.home.runDefinition h, fun name v filled => ?_⟩
  rcases result_of_runDefinition numbered.home.there h filled with before | ⟨entries, has, mem⟩
  · exact (numbered.values name v before).mono (nextSerial_le_of_runDefinition h)
  · exact numbered.typesBelow_of_entries h has mem

/-- A form keeps the frame numbered. -/
theorem Numbered.runForm (numbered : s.Numbered frame) {form : Form} {pending : Pending}
    (h : s.runForm fuel frame form = some (pending, t)) : t.Numbered frame := by
  cases form with
  | definition d =>
    obtain ⟨⟨r, after⟩, defined, built⟩ := Option.bind_eq_some_iff.1 h
    cases built
    exact numbered.runDefinition defined
  | expression e =>
    obtain ⟨result, -, built⟩ := Option.bind_eq_some_iff.1 h
    cases result <;> cases built <;> exact numbered
  | check | malformed =>
    cases h
    exact numbered

/-- Forms keep the frame numbered. -/
theorem Numbered.runForms (numbered : s.Numbered frame) {forms : List Form}
    {pendings : List Pending} (h : s.runForms fuel frame forms = some (pendings, t)) :
    t.Numbered frame := by
  induction forms generalizing s pendings with
  | nil =>
    cases h
    exact numbered
  | cons form forms ih =>
    obtain ⟨first, middle, rest, now, later, -⟩ := runForms_cons h
    exact ih (numbered.runForm now) later

/-- The frame is numbered at every moment of a program. -/
theorem Numbered.storeBefore (numbered : s.Numbered frame) {forms : List Form} {i : Nat}
    {before : Store} (h : s.storeBefore? fuel frame forms i = some before) :
    before.Numbered frame := by
  obtain ⟨⟨pendings, last⟩, ran, built⟩ := Option.bind_eq_some_iff.1 h
  cases built
  exact (numbered.reserveAll _).runForms ran

/-- The frame is numbered in every store that is reached. -/
theorem Reached.numbered (h : Reached frame s) : s.Numbered frame := by
  induction h with
  | fresh s => exact numbered_newLibrary s
  | run _ ran ih =>
    obtain ⟨fuel, ran⟩ := ran
    obtain ⟨pendings, passed, -⟩ := run_eq_some_iff.1 ran
    exact (ih.reserveAll _).runForms passed

end Store

end Tyro
