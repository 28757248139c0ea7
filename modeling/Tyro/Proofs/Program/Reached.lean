import Tyro.Proofs.Eval.Follows
import Tyro.Proofs.Program.Fuel

/-!
# What runs leave behind

`Store.Reached frame s` says that the store is one that programs can meet who take the frame as
their top level: the frame was made with the library in it, and programs have run in it since. Every
step of a run keeps the frame a home (`IsHome.run`), so that it is one in all stores that are
reached (`Reached.isHome`).
-/

namespace Tyro.Store

variable {s : Store} {frame : FrameId} {fuel : Nat}

/-- Binding a name keeps the frame a home if the value is at home there. -/
theorem IsHome.binds (home : s.IsHome frame) {name : String} {result : Except EvalError Value}
    (value : ∀ v, result = .ok v → v.AtHome frame) {r : FormResult} {t : Store}
    (h : s.Binds frame name result r t) : t.IsHome frame := by
  cases h with
  | refused refusal => exact home
  | @bound v reserved =>
    refine home.setSlot name fun w same => ?_
    cases same
    exact value v rfl
  | failed reserved => exact home.setSlot name nofun

/-- A definition keeps the frame a home. -/
theorem IsHome.runDefinition (home : s.IsHome frame) {d : Definition} {r : FormResult} {s' : Store}
    (h : s.runDefinition fuel frame d = some (r, s')) : s'.IsHome frame := by
  cases d with
  | constant name body =>
    obtain ⟨result, evaluated, binds⟩ := runDefinition_constant h
    refine home.binds (fun v value => ?_) binds
    rw [value] at evaluated
    exact home.atHome_eval? evaluated
  | function name params body =>
    refine home.binds (fun v value => ?_) (runDefinition_function h)
    cases value
    exact .closure rfl
  | struct name fields =>
    rw [runDefinition_struct] at h
    cases h
    exact (home.newStruct name fields).fillAll fun _ _ => StructType.atHome_functions

/-- A form keeps the frame a home. -/
theorem IsHome.runForm (home : s.IsHome frame) {form : Form} {pending : Pending} {s' : Store}
    (h : s.runForm fuel frame form = some (pending, s')) : s'.IsHome frame := by
  cases form with
  | definition d =>
    obtain ⟨⟨r, after⟩, defined, built⟩ := Option.bind_eq_some_iff.1 h
    cases built
    exact home.runDefinition defined
  | expression e =>
    obtain ⟨result, -, built⟩ := Option.bind_eq_some_iff.1 h
    cases result <;> cases built <;> exact home
  | check c =>
    cases h
    exact home
  | malformed e =>
    cases h
    exact home

/-- Forms keep the frame a home. -/
theorem IsHome.runForms (home : s.IsHome frame) {forms : List Form} {pendings : List Pending}
    {s' : Store} (h : s.runForms fuel frame forms = some (pendings, s')) : s'.IsHome frame := by
  induction forms generalizing s pendings with
  | nil =>
    cases h
    exact home
  | cons form forms ih =>
    obtain ⟨⟨first, middle⟩, now, h⟩ := Option.bind_eq_some_iff.1 h
    obtain ⟨⟨rest, last⟩, later, built⟩ := Option.bind_eq_some_iff.1 h
    cases built
    exact ih (home.runForm now) later

/-- A program keeps the frame a home. -/
theorem IsHome.run (home : s.IsHome frame) {forms : List Form} {results : List FormResult}
    {after : Store} (h : s.run fuel frame forms = some (results, after)) : after.IsHome frame := by
  obtain ⟨⟨pendings, last⟩, ran, h⟩ := Option.bind_eq_some_iff.1 h
  obtain ⟨settled, -, built⟩ := Option.bind_eq_some_iff.1 h
  cases built
  exact (home.reserveAll _).runForms ran

/-- The store is what programs can meet who take the frame as their top level: a frame made with the
library, after whatever programs have run in it and gotten to their end. -/
inductive Reached : FrameId → Store → Prop
  | fresh (s : Store) : Reached s.newLibrary.1 s.newLibrary.2
  | run {frame : FrameId} {s after : Store} {forms : List Form} {results : List FormResult}
    (before : Reached frame s) (ran : s.Runs frame forms results after) : Reached frame after

/-- The frame is a home in every store that is reached. -/
theorem Reached.isHome (h : Reached frame s) : s.IsHome frame := by
  induction h with
  | fresh s => exact isHome_newLibrary s
  | run _ ran ih =>
    obtain ⟨fuel, ran⟩ := ran
    exact ih.run ran

end Tyro.Store
