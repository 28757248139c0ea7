import Tyro.Proofs.Program.Moments
import Tyro.Proofs.Program.Reached

/-!
# What definitions leave in the store

Only definitions change the store, so that a program leaves what its definitions alone leave
(`runForms_definitions`). What a slot is filled with after a definition was there before, or is what
the definition had for the name (`result_of_runDefinition`), and values stay (`keeps_of_runForms`).

If a definition has bound its names, the store satisfies it as an equation from then on
(`Store.Satisfies`): the value of a constant is the value of its body in that store itself, whatever
has been defined since. So a store satisfies all definitions of a program that all succeed
(`satisfies_of_runForms`).
-/

namespace Tyro

/-- The definition that the form is, if it is one. -/
def Form.definition? : Form → Option Definition
  | .definition d => some d
  | _ => none

/-- The definition has bound all its names. -/
def FormResult.IsBinding : FormResult → Prop
  | .bound _ _ => True
  | .structBound _ => True
  | _ => False

namespace Store

variable {s t : Store} {frame : FrameId} {fuel : Nat}

/-! ## Only definitions change the store -/

/-- The names that definitions bind as forms. -/
theorem flatMap_boundNames_map (ds : List Definition) :
    (ds.map .definition).flatMap Form.boundNames = ds.flatMap Definition.boundNames := by
  rw [List.flatMap_map]
  rfl

/-- The names that a program binds are those of its definitions. -/
theorem flatMap_boundNames_definitions (forms : List Form) :
    (forms.filterMap Form.definition?).flatMap Definition.boundNames =
      forms.flatMap Form.boundNames := by
  induction forms with
  | nil => rfl
  | cons form forms ih =>
    rw [List.flatMap_cons, ← ih]
    cases form <;> rfl

/-- The definitions of a program leave the same store by themselves. -/
theorem runForms_definitions {forms : List Form} {pendings : List Pending}
    (h : s.runForms fuel frame forms = some (pendings, t)) :
    ∃ pendings', s.runForms fuel frame ((forms.filterMap Form.definition?).map .definition) =
      some (pendings', t) := by
  induction forms generalizing s pendings with
  | nil => exact ⟨pendings, h⟩
  | cons form forms ih =>
    obtain ⟨first, middle, rest, now, later, -⟩ := runForms_cons h
    obtain ⟨pendings', others⟩ := ih later
    cases form with
    | definition d =>
      refine ⟨first :: pendings', ?_⟩
      change (s.runForm fuel frame (.definition d) >>= fun x => _) = _
      rw [now]
      change (middle.runForms fuel frame _ >>= fun x => _) = _
      rw [others]
      rfl
    | expression e =>
      obtain ⟨result, -, built⟩ := Option.bind_eq_some_iff.1 now
      cases result <;> cases built <;> exact ⟨pendings', others⟩
    | check c =>
      cases now
      exact ⟨pendings', others⟩
    | malformed e =>
      cases now
      exact ⟨pendings', others⟩

/-! ## Values that stay and values that come -/

/-- A definition keeps values. -/
theorem keeps_of_runDefinition (there : frame < s.frames.length) {d : Definition} {r : FormResult}
    (h : s.runDefinition fuel frame d = some (r, t)) : s.Keeps t frame := by
  obtain ⟨-, entries, -, -, slots⟩ := runDefinition_spec there h
  intro name v filled
  rw [slots, filled, Slot.receive_filled]

/-- Forms keep values. -/
theorem keeps_of_runForms (there : frame < s.frames.length) {forms : List Form}
    {pendings : List Pending} (h : s.runForms fuel frame forms = some (pendings, t)) :
    s.Keeps t frame := by
  obtain ⟨-, entries, -, -, slots⟩ := runForms_spec there h
  intro name v filled
  rw [slots, filled, Slot.receive_filled]

/-- What a name is filled with after a definition, it was filled with before, or the definition had
it for the name. -/
theorem result_of_runDefinition (there : frame < s.frames.length) {d : Definition} {r : FormResult}
    (h : s.runDefinition fuel frame d = some (r, t)) {name : String}
    {result : Except EvalError Value} (filled : t.slot? frame name = some (.filled result)) :
    s.slot? frame name = some (.filled result) ∨
      ∃ entries, s.entries? fuel frame d = some entries ∧ (name, result) ∈ entries := by
  obtain ⟨-, entries, has, -, slots⟩ := runDefinition_spec there h
  rw [slots] at filled
  cases before : s.slot? frame name with
  | none =>
    rw [before] at filled
    cases filled
  | some slot =>
    rw [before] at filled
    cases slot with
    | filled result => exact .inl filled
    | reserved =>
      cases found : Bindings.find name entries with
      | none =>
        rw [found] at filled
        cases filled
      | some result =>
        rw [found] at filled
        cases filled
        exact .inr ⟨entries, has, Bindings.mem_of_find found⟩

/-- The values with which several names are filled are there afterwards, if none is refused. -/
theorem slot?_fillAll_of_eq_none (there : frame < s.frames.length) {entries : List (String × Value)}
    (accepted : (s.fillAll frame entries).1 = none) {name : String} {v : Value}
    (mem : (name, v) ∈ entries) :
    (s.fillAll frame entries).2.slot? frame name = some (.filled (.ok v)) := by
  induction entries generalizing s with
  | nil => cases mem
  | cons entry entries ih =>
    obtain ⟨first, w⟩ := entry
    unfold fillAll at accepted ⊢
    cases filled : s.fill frame first (.ok w) with
    | error e =>
      rw [filled] at accepted
      cases accepted
    | ok s' =>
      rw [filled] at accepted
      have there' : frame < s'.frames.length := by rwa [length_fill filled]
      rcases List.mem_cons.1 mem with here | later
      · cases here
        obtain ⟨-, rfl⟩ := fill_eq_ok_iff.1 filled
        dsimp only
        rw [slot?_fillAll there', slot?_setSlot there, if_pos rfl, Slot.receive_filled]
      · exact ih there' accepted later

/-! ## Equations -/

/-- The store satisfies the definition as an equation. -/
def Satisfies (t : Store) (frame : FrameId) : Definition → Prop
  | .constant name body => ∃ v, t.slot? frame name = some (.filled (.ok v)) ∧
    ∃ fuel, t.eval? fuel frame body = some (.ok v)
  | .function name params body =>
    t.slot? frame name = some (.filled (.ok (.closure ⟨name, params, body, frame⟩)))
  | .struct name fields => ∃ serial, ∀ entry ∈ StructType.functions ⟨serial, name, fields⟩,
    t.slot? frame entry.1 = some (.filled (.ok entry.2))

/-- A structure definition that has bound its names has put all functions of its type there. -/
theorem slot?_of_struct (there : frame < s.frames.length) {name : String} {fields : List String}
    {r : FormResult} (h : s.runDefinition fuel frame (.struct name fields) = some (r, t))
    (bound : r.IsBinding) : ∀ entry ∈ StructType.functions ⟨s.nextSerial, name, fields⟩,
      t.slot? frame entry.1 = some (.filled (.ok entry.2)) := by
  rw [runDefinition_struct] at h
  rintro ⟨other, v⟩ mem
  cases accepted : ((s.newStruct name fields).2.fillAll frame
      (s.newStruct name fields).1.functions).1 with
  | some e =>
    rw [accepted] at h
    cases h
    exact bound.elim
  | none =>
    cases h
    have there' : frame < (s.newStruct name fields).2.frames.length := there
    exact slot?_fillAll_of_eq_none there' accepted mem

/-- A definition that has bound its names is satisfied, in every store that keeps the values. -/
theorem satisfies_of_runDefinition (home : s.IsHome frame) {d : Definition} {r : FormResult}
    {s' : Store} (h : s.runDefinition fuel frame d = some (r, s')) (bound : r.IsBinding)
    (home' : t.IsHome frame) (keeps : s'.Keeps t frame) : t.Satisfies frame d := by
  have before := keeps_of_runDefinition home.there h
  cases d with
  | constant name body =>
    obtain ⟨result, evaluated, binds⟩ := runDefinition_constant h
    cases binds with
    | @bound v reserved =>
      refine ⟨v, keeps name v ?_, fuel, (home.eval?_keeps home' (before.trans keeps) evaluated).1⟩
      rw [slot?_setSlot home.there, if_pos rfl]
    | refused refusal => exact bound.elim
    | failed reserved => exact bound.elim
  | function name params body =>
    cases runDefinition_function h with
    | bound reserved =>
      refine keeps name _ ?_
      rw [slot?_setSlot home.there, if_pos rfl]
    | refused refusal => exact bound.elim
  | struct name fields =>
    exact ⟨s.nextSerial, fun entry mem => keeps _ _ (slot?_of_struct home.there h bound entry mem)⟩

/-- Every form of a list is a definition that has bound its names. -/
def AllBound (pendings : List Pending) : Prop :=
  ∀ pending ∈ pendings, ∃ r, pending = .done r ∧ r.IsBinding

/-- **A store satisfies the definitions that have bound their names in it.** -/
theorem satisfies_of_runForms (home : s.IsHome frame) {ds : List Definition}
    {pendings : List Pending}
    (h : s.runForms fuel frame (ds.map .definition) = some (pendings, t))
    (bound : AllBound pendings) : ∀ d ∈ ds, t.Satisfies frame d := by
  induction ds generalizing s pendings with
  | nil => exact List.forall_mem_nil _
  | cons d ds ih =>
    obtain ⟨first, middle, rest, now, later, rfl⟩ := runForms_cons h
    obtain ⟨⟨r, same, first⟩, others⟩ := List.forall_mem_cons.1 bound
    obtain ⟨⟨r', after⟩, defined, built⟩ := Option.bind_eq_some_iff.1 now
    cases built
    cases same
    have home' := home.runDefinition defined
    refine List.forall_mem_cons.2 ⟨?_, ih home' later others⟩
    exact satisfies_of_runDefinition home defined first (home'.runForms later)
      (keeps_of_runForms home'.there later)

/-- A satisfied definition has a value for each of its names. -/
theorem Satisfies.slot {d : Definition} (h : t.Satisfies frame d) {name : String}
    (mem : name ∈ d.boundNames) : ∃ v, t.slot? frame name = some (.filled (.ok v)) := by
  cases d with
  | constant first body =>
    obtain ⟨v, filled, -⟩ := h
    cases List.mem_singleton.1 mem
    exact ⟨v, filled⟩
  | function first params body =>
    cases List.mem_singleton.1 mem
    exact ⟨_, h⟩
  | struct struct fields =>
    obtain ⟨serial, slots⟩ := h
    rw [Definition.boundNames, ← StructType.map_fst_functions ⟨serial, struct, fields⟩] at mem
    obtain ⟨entry, inside, rfl⟩ := List.mem_map.1 mem
    exact ⟨entry.2, slots entry inside⟩

/-! ## Runs of definitions -/

/-- The second pass leaves nothing of definitions to wait. -/
theorem done_of_runForms {ds : List Definition} {pendings : List Pending}
    (h : s.runForms fuel frame (ds.map .definition) = some (pendings, t)) :
    ∀ pending ∈ pendings, ∃ r, pending = .done r := by
  induction ds generalizing s pendings with
  | nil =>
    cases h
    exact List.forall_mem_nil _
  | cons d ds ih =>
    obtain ⟨first, middle, rest, now, later, rfl⟩ := runForms_cons h
    obtain ⟨⟨r, after⟩, -, built⟩ := Option.bind_eq_some_iff.1 now
    cases built
    exact List.forall_mem_cons.2 ⟨⟨r, rfl⟩, ih later⟩

/-- A run of definitions whose results are all bindings has a second pass that binds all. -/
theorem allBound_of_run {ds : List Definition} {results : List FormResult}
    (h : s.run fuel frame (ds.map .definition) = some (results, t))
    (bound : ∀ r ∈ results, r.IsBinding) :
    ∃ pendings, (s.reserveAll frame ((ds.map .definition).flatMap Form.boundNames)).runForms fuel
      frame (ds.map .definition) = some (pendings, t) ∧ AllBound pendings := by
  obtain ⟨pendings, passed, settled⟩ := run_eq_some_iff.1 h
  refine ⟨pendings, passed, fun pending mem => ?_⟩
  obtain ⟨r, rfl⟩ := done_of_runForms passed pending mem
  obtain ⟨i, place⟩ := List.getElem?_of_mem mem
  obtain ⟨r', result, settledHere⟩ := settle_getElem? settled place
  cases settledHere
  exact ⟨r, rfl, bound r (List.mem_of_getElem? result)⟩

/-- Where nothing waits, everything is settled. -/
theorem settle_done (s : Store) (fuel : Nat) (frame : FrameId) {pendings : List Pending}
    (done : ∀ pending ∈ pendings, ∃ r, pending = .done r) :
    ∃ results, s.settle fuel frame pendings = some results := by
  induction pendings with
  | nil => exact ⟨[], rfl⟩
  | cons pending pendings ih =>
    obtain ⟨⟨r, rfl⟩, others⟩ := List.forall_mem_cons.1 done
    obtain ⟨results, settled⟩ := ih others
    exact ⟨r :: results, Option.bind_eq_some_iff.2 ⟨results, settled, rfl⟩⟩

/-- A program leaves the store that its definitions alone leave. -/
theorem run_definitions {forms : List Form} {results : List FormResult}
    (h : s.run fuel frame forms = some (results, t)) :
    ∃ results', s.run fuel frame ((forms.filterMap Form.definition?).map .definition) =
      some (results', t) := by
  obtain ⟨pendings, passed, -⟩ := run_eq_some_iff.1 h
  obtain ⟨pendings', passed'⟩ := runForms_definitions passed
  obtain ⟨results', settled⟩ := t.settle_done fuel frame (done_of_runForms passed')
  refine ⟨results', run_eq_some_iff.2 ⟨pendings', ?_, settled⟩⟩
  rw [flatMap_boundNames_map, flatMap_boundNames_definitions]
  exact passed'

/-- A test has the result that it comes to in the store that the program leaves. -/
theorem check_of_run {forms : List Form} {results : List FormResult}
    (h : s.run fuel frame forms = some (results, t)) {i : Nat} {c : Check}
    (place : forms[i]? = some (.check c)) :
    ∃ r, results[i]? = some (.check r) ∧ c.run (fun e => t.eval? fuel frame e) = some r := by
  obtain ⟨pendings, passed, settled⟩ := run_eq_some_iff.1 h
  obtain ⟨-, before, pending, after, -, now, waits⟩ := runForms_getElem? passed place
  cases now
  obtain ⟨r, result, settledHere⟩ := settle_getElem? settled waits
  obtain ⟨outcome, ran, built⟩ := Option.bind_eq_some_iff.1 settledHere
  cases built
  exact ⟨outcome, result, ran⟩

end Store

end Tyro
