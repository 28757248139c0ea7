import Tyro.Proofs.Store.Slots

/-!
# The top level at every moment of a run

The second pass arrives at the forms of a program one after the other. `storeBefore?` is the store
just before a form, and `entriesBefore?` lists what the definitions up to there have tried to bind,
each name with the result that came for it.

* One definition lets each slot of the frame receive the first result that it has for the name
  (`runDefinition_spec`), and so does a list of forms (`runForms_spec`).
* From this and from what reserving does, `slot?_storeBefore` gives the slot of every name at every
  moment: `Slot.atMoment`.
* `runDefinition_alreadyDefined_iff` says which definitions are refused, and with which name.

`slots_at_every_moment` puts these together.
-/

namespace Tyro

namespace Store

variable {s : Store} {frame : FrameId} {fuel : Nat}

/-! ## Binding entries -/

/-- What a definition has for its names when it is evaluated, in the order of the names. -/
def entries? (s : Store) (fuel : Nat) (frame : FrameId) :
    Definition → Option (List (String × Except EvalError Value))
  | .constant name body => do return [(name, ← s.eval? fuel frame body)]
  | .function name params body => some [(name, .ok (.closure ⟨name, params, body, frame⟩))]
  | .struct name fields => some (resultsOf (s.newStruct name fields).1.functions)

/-- What a form has for the names that it binds. -/
def formEntries? (s : Store) (fuel : Nat) (frame : FrameId) :
    Form → Option (List (String × Except EvalError Value))
  | .definition d => s.entries? fuel frame d
  | _ => some []

/-- What forms have for the names that they bind, each form when the second pass arrives at it. -/
def entriesOf? (s : Store) (fuel : Nat) (frame : FrameId) :
    List Form → Option (List (String × Except EvalError Value))
  | [] => some []
  | form :: forms => do
    let entries ← s.formEntries? fuel frame form
    let (_, s) ← s.runForm fuel frame form
    return entries ++ (← s.entriesOf? fuel frame forms)

/-- A definition has results for just the names that it binds, and evaluating it lets each slot
receive the first one for its name. -/
theorem runDefinition_spec (there : frame < s.frames.length) {d : Definition} {r : FormResult}
    {s' : Store} (h : s.runDefinition fuel frame d = some (r, s')) :
    s'.frames.length = s.frames.length ∧
      ∃ entries, s.entries? fuel frame d = some entries ∧ entries.map Prod.fst = d.boundNames ∧
        ∀ name, s'.slot? frame name =
          Slot.receive (s.slot? frame name) (Bindings.find name entries) := by
  cases d with
  | constant name body =>
    obtain ⟨result, evaluated, binds⟩ := runDefinition_constant h
    have entries : s.entries? fuel frame (.constant name body) = some [(name, result)] := by
      simp only [entries?, evaluated]
      rfl
    obtain ⟨length, slots⟩ := binds.slots there
    exact ⟨length, _, entries, rfl, slots⟩
  | function name params body =>
    obtain ⟨length, slots⟩ := (runDefinition_function h).slots there
    exact ⟨length, _, rfl, rfl, slots⟩
  | struct name fields =>
    have there' : frame < (s.newStruct name fields).2.frames.length := there
    rw [runDefinition_struct] at h
    cases h
    refine ⟨length_fillAll _ _ _, _, rfl, ?_, slot?_fillAll there' _⟩
    rw [map_fst_resultsOf]
    exact StructType.map_fst_functions _

/-- A form has results for just the names that it binds, and evaluating it lets each slot receive
the first one for its name. -/
theorem runForm_spec (there : frame < s.frames.length) {form : Form} {pending : Pending}
    {s' : Store} (h : s.runForm fuel frame form = some (pending, s')) :
    s'.frames.length = s.frames.length ∧
      ∃ entries, s.formEntries? fuel frame form = some entries ∧
        entries.map Prod.fst = form.boundNames ∧
        ∀ name, s'.slot? frame name =
          Slot.receive (s.slot? frame name) (Bindings.find name entries) := by
  have unchanged (same : s' = s) (other : ∀ d, form ≠ .definition d) :
      s'.frames.length = s.frames.length ∧
        ∃ entries, s.formEntries? fuel frame form = some entries ∧
          entries.map Prod.fst = form.boundNames ∧
          ∀ name, s'.slot? frame name =
            Slot.receive (s.slot? frame name) (Bindings.find name entries) := by
    subst same
    refine ⟨rfl, [], ?_, ?_, fun name => (Slot.receive_none _).symm⟩
    · cases form with
      | definition d => exact absurd rfl (other d)
      | _ => rfl
    · cases form with
      | definition d => exact absurd rfl (other d)
      | _ => rfl
  cases form with
  | definition d =>
    obtain ⟨⟨r, after⟩, defined, built⟩ := Option.bind_eq_some_iff.1 h
    cases built
    exact runDefinition_spec there defined
  | expression e =>
    obtain ⟨result, -, built⟩ := Option.bind_eq_some_iff.1 h
    have same : s' = s := by cases result <;> cases built <;> rfl
    exact unchanged same nofun
  | check c =>
    cases h
    exact unchanged rfl nofun
  | malformed e =>
    cases h
    exact unchanged rfl nofun

/-- A run over forms evaluates the first one and goes on from there. -/
theorem runForms_cons {form : Form} {forms : List Form} {pendings : List Pending} {s' : Store}
    (h : s.runForms fuel frame (form :: forms) = some (pendings, s')) :
    ∃ first middle rest, s.runForm fuel frame form = some (first, middle) ∧
      middle.runForms fuel frame forms = some (rest, s') ∧ pendings = first :: rest := by
  rw [runForms] at h
  obtain ⟨⟨first, middle⟩, now, h⟩ := Option.bind_eq_some_iff.1 h
  obtain ⟨⟨rest, last⟩, later, built⟩ := Option.bind_eq_some_iff.1 h
  cases built
  exact ⟨first, middle, rest, now, later, rfl⟩

/-- A run over two lists of forms goes over the first and on from there over the second. -/
theorem runForms_append {forms others : List Form} {pendings : List Pending} {s' : Store}
    (h : s.runForms fuel frame (forms ++ others) = some (pendings, s')) :
    ∃ first middle rest, s.runForms fuel frame forms = some (first, middle) ∧
      middle.runForms fuel frame others = some (rest, s') ∧ pendings = first ++ rest := by
  induction forms generalizing s pendings with
  | nil => exact ⟨[], s, pendings, rfl, h, rfl⟩
  | cons form forms ih =>
    obtain ⟨pending, next, more, now, later, rfl⟩ := runForms_cons h
    obtain ⟨first, middle, rest, ran, last, rfl⟩ := ih later
    refine ⟨pending :: first, middle, rest, ?_, last, rfl⟩
    simp only [runForms, now, Option.bind_eq_bind, Option.bind_some, ran]
    rfl

/-- Every form has its place among what the run leaves. -/
theorem length_runForms {forms : List Form} {pendings : List Pending} {s' : Store}
    (h : s.runForms fuel frame forms = some (pendings, s')) : pendings.length = forms.length := by
  induction forms generalizing s pendings with
  | nil =>
    cases h
    rfl
  | cons form forms ih =>
    obtain ⟨first, middle, rest, -, later, rfl⟩ := runForms_cons h
    rw [List.length_cons, List.length_cons, ih later]

/-- A list of forms lets each slot receive the first result that one of the forms has for its
name. -/
theorem runForms_spec (there : frame < s.frames.length) {forms : List Form}
    {pendings : List Pending} {s' : Store}
    (h : s.runForms fuel frame forms = some (pendings, s')) :
    s'.frames.length = s.frames.length ∧
      ∃ entries, s.entriesOf? fuel frame forms = some entries ∧
        entries.map Prod.fst = forms.flatMap Form.boundNames ∧
        ∀ name, s'.slot? frame name =
          Slot.receive (s.slot? frame name) (Bindings.find name entries) := by
  induction forms generalizing s pendings with
  | nil =>
    cases h
    exact ⟨rfl, [], rfl, rfl, fun name => (Slot.receive_none _).symm⟩
  | cons form forms ih =>
    obtain ⟨first, middle, rest, now, later, -⟩ := runForms_cons h
    obtain ⟨length, entries, found, names, slots⟩ := runForm_spec there now
    have there' : frame < middle.frames.length := by rwa [length]
    obtain ⟨length', entries', found', names', slots'⟩ := ih there' later
    refine ⟨length'.trans length, entries ++ entries', ?_, ?_, fun name => ?_⟩
    · simp only [entriesOf?, found, now, Option.bind_eq_bind, Option.bind_some, found']
      rfl
    · rw [List.map_append, names, names', List.flatMap_cons]
    · rw [slots', slots, Slot.receive_receive, Bindings.find_append]

/-- A form takes no slot away. -/
theorem isSome_slot?_runForm (there : frame < s.frames.length) {form : Form} {pending : Pending}
    {s' : Store} (h : s.runForm fuel frame form = some (pending, s')) {name : String}
    (has : (s.slot? frame name).isSome = true) : (s'.slot? frame name).isSome = true := by
  obtain ⟨-, entries, -, -, slots⟩ := runForm_spec there h
  rw [slots]
  exact Slot.isSome_receive has _

/-- Where the names of all forms are reserved, those of the first are, and those of the others still
are after it. -/
theorem isSome_slot?_cons (there : frame < s.frames.length) {form : Form} {forms : List Form}
    (has : ∀ name ∈ (form :: forms).flatMap Form.boundNames, (s.slot? frame name).isSome = true)
    {pending : Pending} {s' : Store} (h : s.runForm fuel frame form = some (pending, s')) :
    (∀ name ∈ form.boundNames, (s.slot? frame name).isSome = true) ∧
      ∀ name ∈ forms.flatMap Form.boundNames, (s'.slot? frame name).isSome = true := by
  rw [List.flatMap_cons] at has
  constructor
  · intro name mem
    exact has name (List.mem_append_left _ mem)
  · intro name mem
    exact isSome_slot?_runForm there h (has name (List.mem_append_right _ mem))

/-- Forms take no slot away. -/
theorem isSome_slot?_runForms (there : frame < s.frames.length) {forms : List Form}
    {pendings : List Pending} {s' : Store}
    (h : s.runForms fuel frame forms = some (pendings, s')) {name : String}
    (has : (s.slot? frame name).isSome = true) : (s'.slot? frame name).isSome = true := by
  obtain ⟨-, entries, -, -, slots⟩ := runForms_spec there h
  rw [slots]
  exact Slot.isSome_receive has _

/-! ## Moments -/

/-- The store just before a form of a program is evaluated in the second pass, the form given by its
place. At the end of the program, it is the store in which the tests are run. -/
def storeBefore? (s : Store) (fuel : Nat) (frame : FrameId) (forms : List Form) (i : Nat) :
    Option Store := do
  let (_, s) ← (s.reserveAll frame (forms.flatMap Form.boundNames)).runForms fuel frame
    (forms.take i)
  return s

/-- The binding entries of the forms before a place, in program order. -/
def entriesBefore? (s : Store) (fuel : Nat) (frame : FrameId) (forms : List Form) (i : Nat) :
    Option (List (String × Except EvalError Value)) :=
  (s.reserveAll frame (forms.flatMap Form.boundNames)).entriesOf? fuel frame (forms.take i)

end Store

/-- The slot of a name at a moment of a run, from its slot at the start, from the result of the
first binding entry for the name before that moment, and from whether a definition binds the name
later. -/
def Slot.atMoment (start : Option Slot) (entry : Option (Except EvalError Value)) (later : Prop)
    [Decidable later] : Option Slot :=
  match start, entry with
  | some (.filled result), _ => some (.filled result)
  | _, some result => some (.filled result)
  | some .reserved, none => some .reserved
  | none, none => if later then some .reserved else none

/-- A name that has met nothing so far has a slot if a definition binds it later. -/
theorem Slot.atMoment_absent (later : Prop) [Decidable later] :
    atMoment none none later = if later then some .reserved else none := rfl

namespace Store

variable {s : Store} {frame : FrameId} {fuel : Nat}

/-- The names of a program are those before a place and those from there on. -/
theorem flatMap_take_append_drop (forms : List Form) (i : Nat) :
    (forms.take i).flatMap Form.boundNames ++ (forms.drop i).flatMap Form.boundNames =
      forms.flatMap Form.boundNames := by
  rw [← List.flatMap_append, List.take_append_drop]

/-- A run leaves the number of frames. -/
theorem length_storeBefore (there : frame < s.frames.length) {forms : List Form} {i : Nat}
    {before : Store} (h : s.storeBefore? fuel frame forms i = some before) :
    before.frames.length = s.frames.length := by
  obtain ⟨⟨pendings, last⟩, ran, built⟩ := Option.bind_eq_some_iff.1 h
  cases built
  have there' : frame < (s.reserveAll frame (forms.flatMap Form.boundNames)).frames.length := by
    rwa [length_reserveAll]
  rw [(runForms_spec there' ran).1, length_reserveAll]

/-- The top-level frame has an exact state at every moment of a run. -/
theorem slot?_storeBefore (there : frame < s.frames.length) {forms : List Form} {i : Nat}
    {before : Store} (h : s.storeBefore? fuel frame forms i = some before) :
    ∃ entries, s.entriesBefore? fuel frame forms i = some entries ∧
      entries.map Prod.fst = (forms.take i).flatMap Form.boundNames ∧
      ∀ name, before.slot? frame name =
        Slot.atMoment (s.slot? frame name) (Bindings.find name entries)
          (name ∈ (forms.drop i).flatMap Form.boundNames) := by
  obtain ⟨⟨pendings, last⟩, ran, built⟩ := Option.bind_eq_some_iff.1 h
  cases built
  have there' : frame < (s.reserveAll frame (forms.flatMap Form.boundNames)).frames.length := by
    rwa [length_reserveAll]
  obtain ⟨-, entries, found, names, slots⟩ := runForms_spec there' ran
  refine ⟨entries, found, names, fun name => ?_⟩
  have bound : name ∈ forms.flatMap Form.boundNames ↔
      name ∈ entries.map Prod.fst ∨ name ∈ (forms.drop i).flatMap Form.boundNames := by
    rw [← flatMap_take_append_drop forms i, List.mem_append, names]
  rw [slots, slot?_reserveAll there]
  cases entry : Bindings.find name entries with
  | some result =>
    have mem : name ∈ forms.flatMap Form.boundNames :=
      bound.2 (.inl (Bindings.find_isSome_iff.1 (by rw [entry]; rfl)))
    rw [if_pos mem]
    rcases s.slot? frame name with _ | _ | r <;> rfl
  | none =>
    have later : name ∈ forms.flatMap Form.boundNames ↔
        name ∈ (forms.drop i).flatMap Form.boundNames :=
      bound.trans (or_iff_right (Bindings.find_eq_none_iff.1 entry))
    rw [Slot.receive_none]
    simp only [later]
    rcases s.slot? frame name with _ | _ | r <;> rfl

/-- At every moment, the names that are filled are those filled at the start and those that a
definition before the moment binds. -/
theorem isFilled_storeBefore (there : frame < s.frames.length) {forms : List Form} {i : Nat}
    {before : Store} (h : s.storeBefore? fuel frame forms i = some before) (name : String) :
    before.IsFilled frame name ↔
      s.IsFilled frame name ∨ name ∈ (forms.take i).flatMap Form.boundNames := by
  obtain ⟨entries, -, names, slots⟩ := slot?_storeBefore there h
  unfold IsFilled
  rw [slots, ← names]
  cases entry : Bindings.find name entries with
  | some result =>
    have mem : name ∈ entries.map Prod.fst := Bindings.find_isSome_iff.1 (by rw [entry]; rfl)
    refine iff_of_true ?_ (.inr mem)
    rcases s.slot? frame name with _ | _ | r <;> exact ⟨_, rfl⟩
  | none =>
    rw [or_iff_left (Bindings.find_eq_none_iff.1 entry)]
    rcases s.slot? frame name with _ | _ | r
    · rw [Slot.atMoment_absent]
      split <;> simp
    · simp [Slot.atMoment]
    · simp [Slot.atMoment]

/-- At every moment, all names that the program binds have a slot. -/
theorem isSome_slot?_storeBefore (there : frame < s.frames.length) {forms : List Form} {i : Nat}
    {before : Store} (h : s.storeBefore? fuel frame forms i = some before) {name : String}
    (bound : name ∈ forms.flatMap Form.boundNames) : (before.slot? frame name).isSome = true := by
  obtain ⟨entries, -, names, slots⟩ := slot?_storeBefore there h
  rw [slots]
  rw [← flatMap_take_append_drop forms i, List.mem_append, ← names] at bound
  cases entry : Bindings.find name entries with
  | some result => rcases s.slot? frame name with _ | _ | r <;> rfl
  | none =>
    have later := bound.resolve_left (Bindings.find_eq_none_iff.1 entry)
    rcases s.slot? frame name with _ | _ | r
    · simp [Slot.atMoment, later]
    · rfl
    · rfl

/-- Between two moments of a run, the second pass goes over the forms between them. -/
theorem runForms_between {forms : List Form} {i j : Nat} (le : i ≤ j) {before after : Store}
    (h : s.storeBefore? fuel frame forms i = some before)
    (h' : s.storeBefore? fuel frame forms j = some after) :
    ∃ pendings, before.runForms fuel frame ((forms.drop i).take (j - i)) =
      some (pendings, after) := by
  obtain ⟨⟨pendings, last⟩, ran, built⟩ := Option.bind_eq_some_iff.1 h
  cases built
  obtain ⟨⟨pendings', last'⟩, ran', built'⟩ := Option.bind_eq_some_iff.1 h'
  cases built'
  have cut : forms.take j = forms.take i ++ (forms.drop i).take (j - i) := by
    rw [← List.take_add, Nat.add_sub_cancel' le]
  rw [cut] at ran'
  obtain ⟨first, middle, rest, ran'', later, -⟩ := runForms_append ran'
  rw [ran] at ran''
  cases ran''
  exact ⟨rest, later⟩

/-- Up to a later moment of a run, the second pass evaluates the form at a place and goes over the
forms behind it. -/
theorem runForms_after {forms : List Form} {i j : Nat} (lt : i < j) {form : Form}
    (place : forms[i]? = some form) {before last : Store}
    (h : s.storeBefore? fuel frame forms i = some before)
    (h' : s.storeBefore? fuel frame forms j = some last) :
    ∃ pending after pendings, before.runForm fuel frame form = some (pending, after) ∧
      after.runForms fuel frame ((forms.drop (i + 1)).take (j - (i + 1))) =
        some (pendings, last) := by
  obtain ⟨inside, here⟩ := List.getElem?_eq_some_iff.1 place
  obtain ⟨pendings, between⟩ := runForms_between (Nat.le_of_lt lt) h h'
  have length : j - i = (j - (i + 1)) + 1 := by omega
  rw [← List.getElem_cons_drop inside, here, length, List.take_succ_cons] at between
  obtain ⟨first, middle, others, now, ran, -⟩ := runForms_cons between
  exact ⟨first, middle, others, now, ran⟩

/-- Of one name, it is the first clash if it is taken. -/
theorem isFirstClash_singleton {taken : String → Prop} {first name : String} :
    IsFirstClash taken [first] name ↔ taken first ∧ name = first := by
  rw [isFirstClash_cons]
  exact or_iff_left fun h => isFirstClash_nil h.2

/-- A definition whose names have slots is refused exactly if there is a clash among its names, and
it is refused with the first one. -/
theorem runDefinition_alreadyDefined_iff (there : frame < s.frames.length) {d : Definition}
    (reserved : ∀ name ∈ d.boundNames, (s.slot? frame name).isSome = true) {r : FormResult}
    {s' : Store} (h : s.runDefinition fuel frame d = some (r, s')) (name : String) :
    r = .unbound (.alreadyDefined name) ↔
      IsFirstClash (s.IsFilled frame) d.boundNames name := by
  cases d with
  | constant first body =>
    obtain ⟨result, -, binds⟩ := runDefinition_constant h
    rw [Definition.boundNames, isFirstClash_singleton]
    exact binds.alreadyDefined_iff (reserved first List.mem_cons_self) name
  | function first params body =>
    rw [Definition.boundNames, isFirstClash_singleton]
    exact (runDefinition_function h).alreadyDefined_iff (reserved first List.mem_cons_self) name
  | struct struct fields =>
    have names : (s.newStruct struct fields).1.functions.map Prod.fst = structNames struct fields :=
      StructType.map_fst_functions _
    have there' : frame < (s.newStruct struct fields).2.frames.length := there
    have hasNew := isSome_slot?_newStruct reserved
    have refused (e : BindingError) :=
      @fillAll_fst_eq_some_iff _ frame there' (s.newStruct struct fields).1.functions hasNew e
    rw [names] at refused
    have reported : r = .unbound (.alreadyDefined name) ↔
        ((s.newStruct struct fields).2.fillAll frame
          (s.newStruct struct fields).1.functions).1 = some (.alreadyDefined name) := by
      rw [runDefinition_struct] at h
      cases h
      cases ((s.newStruct struct fields).2.fillAll frame
        (s.newStruct struct fields).1.functions).1 <;> simp
    rw [reported, refused]
    constructor
    · rintro ⟨other, clash, same⟩
      cases same
      exact clash
    · exact fun clash => ⟨name, clash, rfl⟩

/-! ## Every moment -/

/-- A test or a result at the front is settled first. -/
theorem settle_cons {pending : Pending} {pendings : List Pending} {results : List FormResult}
    (h : s.settle fuel frame (pending :: pendings) = some results) :
    ∃ r rest, s.settle fuel frame [pending] = some [r] ∧
      s.settle fuel frame pendings = some rest ∧ results = r :: rest := by
  cases pending with
  | done r =>
    obtain ⟨rest, settled, built⟩ := Option.bind_eq_some_iff.1 h
    cases built
    exact ⟨r, rest, rfl, settled, rfl⟩
  | waiting c =>
    obtain ⟨r, ran, h⟩ := Option.bind_eq_some_iff.1 h
    obtain ⟨rest, settled, built⟩ := Option.bind_eq_some_iff.1 h
    cases built
    exact ⟨.check r, rest, Option.bind_eq_some_iff.2 ⟨r, ran, rfl⟩, settled, rfl⟩

/-- What waits in two lists is settled one after the other. -/
theorem settle_append {pendings others : List Pending} {results : List FormResult}
    (h : s.settle fuel frame (pendings ++ others) = some results) :
    ∃ first rest, s.settle fuel frame pendings = some first ∧
      s.settle fuel frame others = some rest ∧ results = first ++ rest := by
  induction pendings generalizing results with
  | nil => exact ⟨[], results, rfl, h, rfl⟩
  | cons pending pendings ih =>
    obtain ⟨r, more, now, later, rfl⟩ := settle_cons h
    obtain ⟨first, rest, settled, settled', rfl⟩ := ih later
    refine ⟨r :: first, rest, ?_, settled', rfl⟩
    cases pending with
    | done r' =>
      cases now
      exact Option.bind_eq_some_iff.2 ⟨first, settled, rfl⟩
    | waiting c =>
      obtain ⟨x, ran, now⟩ := Option.bind_eq_some_iff.1 now
      cases now
      refine Option.bind_eq_some_iff.2 ⟨x, ran, ?_⟩
      exact Option.bind_eq_some_iff.2 ⟨first, settled, rfl⟩

/-- Every form has its result. -/
theorem length_settle {pendings : List Pending} {results : List FormResult}
    (h : s.settle fuel frame pendings = some results) : results.length = pendings.length := by
  induction pendings generalizing results with
  | nil =>
    cases h
    rfl
  | cons pending pendings ih =>
    obtain ⟨r, rest, -, later, rfl⟩ := settle_cons h
    rw [List.length_cons, List.length_cons, ih later]

/-- The result at a place is that of what waits there. -/
theorem settle_getElem? {pendings : List Pending} {results : List FormResult}
    (h : s.settle fuel frame pendings = some results) {i : Nat} {pending : Pending}
    (place : pendings[i]? = some pending) :
    ∃ r, results[i]? = some r ∧ s.settle fuel frame [pending] = some [r] := by
  induction pendings generalizing results i with
  | nil => cases place
  | cons first pendings ih =>
    obtain ⟨r, rest, now, later, rfl⟩ := settle_cons h
    cases i with
    | zero =>
      cases place
      exact ⟨r, rfl, now⟩
    | succ i => exact ih later place

/-- A run over forms arrives at each of them, with the store that the forms before it have left. -/
theorem runForms_getElem? {forms : List Form} {pendings : List Pending} {s' : Store}
    (h : s.runForms fuel frame forms = some (pendings, s')) {i : Nat} {form : Form}
    (place : forms[i]? = some form) :
    ∃ first before pending after, s.runForms fuel frame (forms.take i) = some (first, before) ∧
      before.runForm fuel frame form = some (pending, after) ∧ pendings[i]? = some pending := by
  obtain ⟨inside, here⟩ := List.getElem?_eq_some_iff.1 place
  have cut : forms.take i ++ form :: forms.drop (i + 1) = forms := by
    rw [← here, List.getElem_cons_drop inside, List.take_append_drop]
  rw [← cut] at h
  obtain ⟨first, before, rest, ranBefore, ranAfter, rfl⟩ := runForms_append h
  obtain ⟨pending, after, more, now, -, rfl⟩ := runForms_cons ranAfter
  have length : first.length = i := by
    rw [length_runForms ranBefore, List.length_take, Nat.min_eq_left (Nat.le_of_lt inside)]
  refine ⟨first, before, pending, after, ranBefore, now, ?_⟩
  rw [List.getElem?_append_right (Nat.le_of_eq length), length, Nat.sub_self]
  rfl

/-- A program is reserved for, passed over and settled. -/
theorem run_eq_some_iff {forms : List Form} {results : List FormResult} {last : Store} :
    s.run fuel frame forms = some (results, last) ↔
      ∃ pendings, (s.reserveAll frame (forms.flatMap Form.boundNames)).runForms fuel frame forms =
        some (pendings, last) ∧ last.settle fuel frame pendings = some results := by
  constructor
  · intro h
    obtain ⟨⟨pendings, final⟩, ran, h⟩ := Option.bind_eq_some_iff.1 h
    obtain ⟨results', settled, built⟩ := Option.bind_eq_some_iff.1 h
    cases built
    exact ⟨pendings, ran, settled⟩
  · rintro ⟨pendings, ran, settled⟩
    refine Option.bind_eq_some_iff.2 ⟨_, ran, ?_⟩
    exact Option.bind_eq_some_iff.2 ⟨_, settled, rfl⟩

/-- A run that gets to its end has been at every moment: each definition has the result that it has
in the store just before it, and the tests are run in the store that is left. -/
theorem run_moments {forms : List Form} {results : List FormResult} {last : Store}
    (h : s.run fuel frame forms = some (results, last)) :
    s.storeBefore? fuel frame forms forms.length = some last ∧
      ∀ i d, forms[i]? = some (.definition d) → ∃ before r after,
        s.storeBefore? fuel frame forms i = some before ∧
          before.runDefinition fuel frame d = some (r, after) ∧ results[i]? = some r := by
  obtain ⟨pendings, ran, settled⟩ := run_eq_some_iff.1 h
  refine ⟨?_, fun i d place => ?_⟩
  · unfold storeBefore?
    rw [List.take_length]
    exact Option.bind_eq_some_iff.2 ⟨_, ran, rfl⟩
  · obtain ⟨first, before, pending, after, ranBefore, now, waits⟩ := runForms_getElem? ran place
    obtain ⟨⟨r, after'⟩, defined, built⟩ := Option.bind_eq_some_iff.1 now
    cases built
    obtain ⟨r', result, same⟩ := settle_getElem? settled waits
    cases same
    exact ⟨before, r, after, Option.bind_eq_some_iff.2 ⟨_, ranBefore, rfl⟩, defined, result⟩

end Store

end Tyro
