import Tyro.Proofs.Program.Printed

/-!
# Well-formed values

An accessor holds the place of its field, and a structure holds its fields without their names. So
writing an accessor down needs its type to have the field, and reading a field needs the structure
to have it. `Value.Sound` says that both are there, in the value and in all values inside it.

* `Value.render?` writes a value down and has no result where a field of a type is missing;
  `Value.Sound.render?_eq` says that it writes what `Value.render` does.
* `Store.Sound` is the invariant that all values in a frame are sound, those that stored errors
  report included. Evaluation keeps to it (`Store.Sound.values_of_eval?`), and so does a program
  (`Store.Sound.run`).
-/

namespace Tyro

/-! ## Sound values -/

/-- Each accessor inside the value is one of a field that its type has, and each structure has as
many fields as its type. -/
inductive Value.Sound : Value → Prop
  | string (content : String) : Sound (.string content)
  | number (value : Float) : Sound (.number value)
  | boolean (value : Bool) : Sound (.boolean value)
  | builtin (function : Builtin) : Sound (.builtin function)
  | closure (function : Closure) : Sound (.closure function)
  | struct {type : StructType} {fields : List Value} (full : fields.length = type.fields.length)
    (all : ∀ v ∈ fields, Sound v) : Sound (.struct type fields)
  | constructor (type : StructType) : Sound (.constructor type)
  | accessor {type : StructType} {index : Nat} (inside : index < type.fields.length) :
    Sound (.accessor type index)
  | predicate (type : StructType) : Sound (.predicate type)

namespace Value

/-! ## Writing values down -/

mutual

/-- The value as text, if it can be written down. -/
def render? : Value → Option String
  | .struct type fields => do
    return "(" ++ constructorName type.name ++ spaced (← renderAll? fields) ++ ")"
  | .accessor type index => do return accessorName type.name (← type.fields[index]?)
  | v => some v.render

/-- The texts of several values, if all can be written down. -/
def renderAll? : List Value → Option (List String)
  | [] => some []
  | v :: vs => do return (← v.render?) :: (← renderAll? vs)

end

/-- The field of a sound accessor is there. -/
theorem getElem?_of_sound {type : StructType} {index : Nat}
    (h : (Value.accessor type index).Sound) :
    type.fields[index]? = some (type.field index) := by
  cases h with
  | accessor inside =>
    rw [StructType.field, List.getD_eq_getElem?_getD, List.getElem?_eq_getElem inside,
      Option.getD_some]

/-- Values that can be written down one by one can be written down together. -/
theorem renderAll?_eq {vs : List Value} (each : ∀ v ∈ vs, v.render? = some v.render) :
    renderAll? vs = some (renderAll vs) := by
  induction vs with
  | nil => rfl
  | cons v vs ih =>
    obtain ⟨first, others⟩ := List.forall_mem_cons.1 each
    rw [renderAll?, renderAll, first, ih others]
    rfl

/-- **A sound value can be written down.** -/
theorem Sound.render?_eq {v : Value} (h : v.Sound) : v.render? = some v.render := by
  induction h with
  | struct full all ih =>
    rw [render?, render, renderAll?_eq ih]
    rfl
  | accessor inside =>
    rw [render?, render, getElem?_of_sound (.accessor inside)]
    rfl
  | _ =>
    rw [render?]
    all_goals simp

/-- The functions of a structure type are sound. -/
theorem sound_accessorsFrom {type : StructType} {index : Nat} {fields : List String}
    (rest : type.fields.drop index = fields) {name : String} {v : Value}
    (h : (name, v) ∈ type.accessorsFrom index fields) : v.Sound := by
  induction fields generalizing index with
  | nil => cases h
  | cons field fields ih =>
    rcases List.mem_cons.1 h with same | later
    · cases same
      refine .accessor (Nat.lt_of_not_le fun beyond => ?_)
      rw [List.drop_eq_nil_of_le beyond] at rest
      cases rest
    · refine ih ?_ later
      rw [← List.tail_drop, rest, List.tail_cons]

/-- The functions of a structure type are sound: there are as many accessors as fields. -/
theorem sound_functions {type : StructType} {name : String} {v : Value}
    (h : (name, v) ∈ type.functions) : v.Sound := by
  rcases List.mem_append.1 h with front | last
  · rcases List.mem_cons.1 front with same | inside
    · cases same
      exact .constructor type
    · exact sound_accessorsFrom rfl inside
  · cases List.mem_singleton.1 last
    exact .predicate type

/-- The values are one and the same, which is at home in the frame and sound. -/
abbrev SameSound (frame : FrameId) (v w : Value) : Prop := w = v ∧ v.AtHome frame ∧ v.Sound

/-- Evaluation keeps values sound. -/
theorem hereditary_sound : Hereditary Sound where
  string := .string
  number := .number
  boolean := .boolean
  fields := by
    rintro type vs (_ | _ | _ | _ | _ | ⟨-, all⟩)
    exact all
  struct _ full all := .struct full all

/-- Sound values that are at home correspond to themselves. -/
theorem correspondence_sound (frame : FrameId) :
    Correspondence frame frame (SameSound frame) Eq fun _ => True :=
  hereditary_sound.correspondence frame

end Value

/-- The values that the error reports are sound. -/
def EvalError.Sound (e : EvalError) : Prop := ∀ v ∈ e.values, v.Sound

namespace Store

/-- A home frame in which all values are sound, those that stored errors report included. -/
structure Sound (s : Store) (frame : FrameId) : Prop where
  home : s.IsHome frame
  values : ∀ name r, s.slot? frame name = some (.filled r) → ∀ v ∈ outcomeValues r, v.Sound

variable {s t : Store} {frame : FrameId} {fuel : Nat}

/-- Errors that report sound values may come of errors that do. -/
theorem tolerant_sound (frame : FrameId) :
    Tolerant (Value.SameSound frame) fun e _ => e.Sound := by
  refine ⟨fun e e' corresponds => ?_, fun e all _ => all⟩
  obtain ⟨context, fault⟩ := e
  obtain ⟨context', fault'⟩ := e'
  obtain ⟨-, faults⟩ := corresponds
  cases faults with
  | notBoolean given | wrongKind _ _ given | wrongStruct _ given =>
    exact List.forall_mem_singleton.2 given.2.2
  | _ => exact List.forall_mem_nil _

/-- In a sound frame, names come to sound values. -/
theorem Sound.namesFollow (sound : s.Sound frame) :
    s.NamesFollow s frame frame (Value.SameSound frame) (fun _ => True) fun e _ => e.Sound := by
  intro name _
  rw [sound.home.meaning]
  cases found : s.slot? frame name with
  | none => exact List.forall_mem_nil _
  | some slot =>
    cases slot with
    | reserved => exact List.forall_mem_nil _
    | filled r =>
      have values := sound.values name r found
      cases r with
      | ok v =>
        exact Answer.follows_result
          ⟨rfl, sound.home.values name v found, values v List.mem_cons_self⟩
      | error e => exact values

/-! ## Evaluation -/

/-- Arguments that are at home and sound. -/
abbrev SoundArgs (frame : FrameId) (locals : Bindings Value) : Prop :=
  locals.Related (Value.SameSound frame) locals

/-- In a sound frame, what an expression comes to is sound wherever the arguments are. -/
theorem Sound.follows (sound : s.Sound frame) {locals : Bindings Value}
    (args : SoundArgs frame locals) (fuel : Nat) (e : Expr) :
    Answer.Follows (Value.SameSound frame) (fun e _ => e.Sound)
      (s.evalAtFuel fuel ⟨locals, frame⟩ e) (s.evalAtFuel fuel ⟨locals, frame⟩ e) :=
  evalAtFuel_follows (Value.correspondence_sound frame) (tolerant_sound frame) rfl
    sound.namesFollow fuel trivial args

/-- Without arguments, all arguments are sound. -/
theorem soundArgs_empty (frame : FrameId) : SoundArgs frame .empty := fun _ => .none

/-- **In a sound frame, what an expression comes to has sound values only.** -/
theorem Sound.values_of_eval? (sound : s.Sound frame) {e : Expr} {r : Except EvalError Value}
    (h : s.eval? fuel frame e = some r) : ∀ v ∈ outcomeValues r, v.Sound := by
  have follows := sound.follows (soundArgs_empty frame) fuel e
  change (s.evalAtFuel fuel ⟨.empty, frame⟩ e).finished? = some r at h
  generalize s.evalAtFuel fuel ⟨.empty, frame⟩ e = answer at h follows
  cases answer with
  | result v =>
    cases h
    obtain ⟨w, -, same⟩ := follows
    exact List.forall_mem_singleton.2 same.2.2
  | error e =>
    cases h
    exact follows
  | outOfFuel => cases h

/-! ## Runs -/

/-- A frame is sound if it upholds that outcomes have sound values. -/
theorem sound_iff_upholds :
    s.Sound frame ↔ s.Upholds frame fun r => ∀ v ∈ outcomeValues r, v.Sound :=
  ⟨fun sound => ⟨sound.home, sound.values⟩, fun upholds => ⟨upholds.home, upholds.stored⟩⟩

/-- Outcomes with sound values come from outcomes with sound values. -/
theorem inherited_sound (frame : FrameId) :
    Inherited frame fun r => ∀ v ∈ outcomeValues r, v.Sound where
  evaluated upholds h := (sound_iff_upholds.2 upholds).values_of_eval? h
  builtin f := List.forall_mem_singleton.2 (.builtin f)
  number x := List.forall_mem_singleton.2 (.number x)
  struct _ _ _ mem := List.forall_mem_singleton.2 (Value.sound_functions mem)
  closure f _ := List.forall_mem_singleton.2 (.closure f)
  refused _ sound _ _ _ := sound

/-- A frame with the library is sound. -/
theorem sound_newLibrary (s : Store) : s.newLibrary.2.Sound s.newLibrary.1 :=
  sound_iff_upholds.2 ((inherited_sound _).newLibrary s)

/-- Reserving names keeps a frame sound. -/
theorem Sound.reserveAll (sound : s.Sound frame) (names : List String) :
    (s.reserveAll frame names).Sound frame :=
  sound_iff_upholds.2 ((sound_iff_upholds.1 sound).reserveAll names)

/-- A form keeps the frame sound. -/
theorem Sound.runForm (sound : s.Sound frame) {form : Form} {pending : Pending}
    (h : s.runForm fuel frame form = some (pending, t)) : t.Sound frame :=
  sound_iff_upholds.2 ((sound_iff_upholds.1 sound).runForm (inherited_sound frame) h).1

/-- Forms keep the frame sound. -/
theorem Sound.runForms (sound : s.Sound frame) {forms : List Form} {pendings : List Pending}
    (h : s.runForms fuel frame forms = some (pendings, t)) : t.Sound frame :=
  sound_iff_upholds.2 ((sound_iff_upholds.1 sound).runForms (inherited_sound frame) h).1

/-- **All values in the results of a program are sound.** -/
theorem Sound.run (sound : s.Sound frame) {forms : List Form} {results : List FormResult}
    (h : s.run fuel frame forms = some (results, t)) : ∀ r ∈ results, ∀ v ∈ r.values, v.Sound :=
  fun r mem => FormResult.forall_mem_values.2
    ((sound_iff_upholds.1 sound).run (inherited_sound frame) h r mem)

/-- The frame is sound at every moment of a program. -/
theorem Sound.storeBefore (sound : s.Sound frame) {forms : List Form} {i : Nat} {before : Store}
    (h : s.storeBefore? fuel frame forms i = some before) : before.Sound frame :=
  sound_iff_upholds.2 ((sound_iff_upholds.1 sound).storeBefore (inherited_sound frame) h)

/-- In a sound frame, a program gets hold of values only that are at home and sound. -/
theorem Sound.sameSound_of_obtains (sound : s.Sound frame) {v : Value}
    (h : s.Obtains frame v) : Value.SameSound frame v v := by
  induction h with
  | @intro source e locals fuel v written args evaluated ih =>
    have soundArgs : SoundArgs frame locals := by
      intro name
      cases found : locals.get? name with
      | none => exact .none
      | some w => exact .some (ih name w found)
    have follows := sound.follows soundArgs fuel e
    rw [evaluated] at follows
    obtain ⟨w, -, -, here, inside⟩ := follows
    exact ⟨rfl, here, inside⟩

end Store

end Tyro
