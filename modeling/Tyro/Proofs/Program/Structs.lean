import Tyro.Proofs.Guarded.Value
import Tyro.Proofs.Program.Stages
import Tyro.Proofs.Store.Serials

/-!
# What a structure definition promises

A definition that has bound its names makes a type of its own, and functions that make, open and
recognize its structures. `StructType.Laws` says what these functions do, to every argument and in
every store; `Store.Provides` says that the names of the definition stand for them.

What makes the laws worth something is what a run brings about. The names keep standing for the
functions of the type, whatever is defined later, a definition of the same name included. No other
definition makes the type, since each takes the next serial number, and no value that comes up
before has it inside. Every structure that comes up at all has as many fields as its type
(`structs_obey_their_laws`).
-/

namespace Tyro

/-! ## The functions of a type -/

/-- The right number of arguments is accepted. -/
theorem Eval.checkCount_of_eq (name : String) {count : Nat} {args : List Value}
    (h : args.length = count) : checkCount name count args = .ok () :=
  if_pos (Arity.accepts_exactly.2 h)

/-- Any other number of arguments is an error. -/
theorem Eval.checkCount_of_ne (name : String) {count : Nat} {args : List Value}
    (h : args.length ≠ count) :
    checkCount name count args = .error (.about name (.arity (.exactly count) args.length)) :=
  if_neg fun accepted => h (Arity.accepts_exactly.1 accepted)

/-- One argument is accepted where one is wanted. -/
theorem Eval.checkCount_single (name : String) (v : Value) : checkCount name 1 [v] = .ok () :=
  checkCount_of_eq name rfl

/-- The name of the accessor of a field that the type has. -/
theorem StructType.field_of_getElem? {type : StructType} {index : Nat} {field : String}
    (h : type.fields[index]? = some field) : type.field index = field := by
  rw [StructType.field, List.getD_eq_getElem?_getD, h, Option.getD_some]

/-- What the functions of a structure type do in a store. -/
structure StructType.Laws (type : StructType) (s : Store) : Prop where
  /-- The constructor makes a structure of as many values as the type has fields. -/
  make : ∀ fuel call vs, vs.length = type.fields.length →
    s.applyAtFuel fuel (.constructor type) vs call = .result (.struct type vs)
  makeArity : ∀ fuel call vs, vs.length ≠ type.fields.length →
    s.applyAtFuel fuel (.constructor type) vs call =
      .error (.about (constructorName type.name)
        (.arity (.exactly type.fields.length) vs.length))
  /-- Each accessor gives back the value that the structure was made with at its place. -/
  access : ∀ fuel call vs index v, vs[index]? = some v →
    s.applyAtFuel fuel (.accessor type index) [.struct type vs] call = .result v
  /-- Of anything that is no structure of the type, the accessor complains. -/
  accessOther : ∀ fuel call index field v, type.fields[index]? = some field →
    (∀ vs, v ≠ .struct type vs) → s.applyAtFuel fuel (.accessor type index) [v] call =
      .error (.about (accessorName type.name field) (.wrongStruct type.name v))
  accessArity : ∀ fuel call index field vs, type.fields[index]? = some field → vs.length ≠ 1 →
    s.applyAtFuel fuel (.accessor type index) vs call =
      .error (.about (accessorName type.name field) (.arity (.exactly 1) vs.length))
  /-- The predicate tells structures of the type from everything else. -/
  recognize : ∀ fuel call vs,
    s.applyAtFuel fuel (.predicate type) [.struct type vs] call = .result (.boolean true)
  recognizeOther : ∀ fuel call v, (∀ vs, v ≠ .struct type vs) →
    s.applyAtFuel fuel (.predicate type) [v] call = .result (.boolean false)
  recognizeArity : ∀ fuel call vs, vs.length ≠ 1 →
    s.applyAtFuel fuel (.predicate type) vs call =
      .error (.about (predicateName type.name) (.arity (.exactly 1) vs.length))

/-- A value that is no structure of the type is not recognized. -/
theorem Eval.isStruct_of_ne {type : StructType} {v : Value} (other : ∀ vs, v ≠ .struct type vs) :
    isStruct type v = false := by
  cases v with
  | struct type' vs =>
    have ne : type' ≠ type := by
      rintro rfl
      exact other vs rfl
    exact decide_eq_false ne
  | _ => rfl

/-- A structure of the type has the value of the field. -/
theorem Eval.access_struct (type : StructType) {index : Nat} {vs : List Value} {v : Value}
    (found : vs[index]? = some v) : access type index [.struct type vs] = .ok v := by
  simp only [access, checkCount_single, List.headD_cons, if_true, found]
  rfl

/-- A value that is no structure of the type has none of its fields. -/
theorem Eval.access_of_ne {type : StructType} {index : Nat} {field : String} {v : Value}
    (has : type.fields[index]? = some field) (other : ∀ vs, v ≠ .struct type vs) :
    access type index [v] =
      .error (.about (accessorName type.name field) (.wrongStruct type.name v)) := by
  unfold access
  rw [StructType.field_of_getElem? has]
  cases v with
  | struct type' vs =>
    have ne : type' ≠ type := by
      rintro rfl
      exact other vs rfl
    exact if_neg ne
  | _ => rfl

/-- The predicate says of one value whether it is a structure of the type. -/
theorem Store.applyAtFuel_predicate (s : Store) (fuel : Nat) (type : StructType) (v : Value)
    (call : Expr) : s.applyAtFuel fuel (.predicate type) [v] call =
      .result (.boolean (Eval.isStruct type v)) := by
  rw [applyAtFuel, Eval.apply, Eval.checkCount_single]
  rfl

/-- The functions of every structure type obey the laws in every store. -/
theorem StructType.laws (type : StructType) (s : Store) : type.Laws s where
  make fuel call vs full := by
    rw [Store.applyAtFuel, Eval.apply, Eval.checkCount_of_eq _ full]
    rfl
  makeArity fuel call vs wrong := by
    rw [Store.applyAtFuel, Eval.apply, Eval.checkCount_of_ne _ wrong]
    rfl
  access fuel call vs index v found := by
    rw [Store.applyAtFuel, Eval.apply, Eval.access_struct type found]
    rfl
  accessOther fuel call index field v has other := by
    rw [Store.applyAtFuel, Eval.apply, Eval.access_of_ne has other]
    rfl
  accessArity fuel call index field vs has wrong := by
    rw [Store.applyAtFuel, Eval.apply, Eval.access, field_of_getElem? has,
      Eval.checkCount_of_ne _ wrong]
    rfl
  recognize fuel call vs := by
    have recognized : Eval.isStruct type (.struct type vs) = true := decide_eq_true rfl
    rw [Store.applyAtFuel_predicate, recognized]
  recognizeOther fuel call v other := by
    rw [Store.applyAtFuel_predicate, Eval.isStruct_of_ne other]
  recognizeArity fuel call vs wrong := by
    rw [Store.applyAtFuel, Eval.apply, Eval.checkCount_of_ne _ wrong]
    rfl

/-! ## The names of a type -/

/-- The names of a structure stand for the functions of its type. -/
structure Store.Provides (s : Store) (frame : FrameId) (type : StructType) : Prop where
  constructor : (Scope.top frame).lookup s (constructorName type.name) = .ok (.constructor type)
  accessor : ∀ index field, type.fields[index]? = some field →
    (Scope.top frame).lookup s (accessorName type.name field) = .ok (.accessor type index)
  predicate : (Scope.top frame).lookup s (predicateName type.name) = .ok (.predicate type)

/-- Each field has its accessor among the entries. -/
theorem StructType.accessor_mem_accessorsFrom (type : StructType) {fields : List String}
    {index : Nat} {field : String} (h : fields[index]? = some field) (start : Nat) :
    (accessorName type.name field, .accessor type (start + index)) ∈
      type.accessorsFrom start fields := by
  induction fields generalizing start index with
  | nil => cases h
  | cons first fields ih =>
    cases index with
    | zero =>
      cases h
      exact List.mem_cons_self
    | succ index =>
      have later := ih h (start + 1)
      rw [Nat.add_right_comm] at later
      exact List.mem_cons_of_mem _ later

namespace Store

variable {s t : Store} {frame : FrameId} {fuel : Nat}

/-- A frame whose slots have all functions of a type provides it. -/
theorem provides_of_slots {type : StructType} (slots : ∀ entry ∈ type.functions,
      s.slot? frame entry.1 = some (.filled (.ok entry.2))) : s.Provides frame type where
  constructor := lookup_top_of_slot? (slots (constructorName type.name, _) List.mem_cons_self)
  accessor index field has := by
    have mem := type.accessor_mem_accessorsFrom has 0
    rw [Nat.zero_add] at mem
    exact lookup_top_of_slot? (slots (accessorName type.name field, _)
      (List.mem_append_left _ (List.mem_cons_of_mem _ mem)))
  predicate := lookup_top_of_slot? (slots (predicateName type.name, _)
    (List.mem_append_right _ List.mem_cons_self))

/-- From a definition that has bound its names on, every store that settles from it provides the
type. -/
theorem provides_of_settles (there : frame < s.frames.length) {name : String}
    {fields : List String} {after : Store}
    (bound : s.runDefinition fuel frame (.struct name fields) = some (.structBound name, after))
    (settles : after.Settles t) : t.Provides frame (s.newStruct name fields).1 :=
  provides_of_slots fun entry mem =>
    settles.slot?_filled (slot?_of_struct there bound trivial entry mem)

/-! ## Types of other definitions -/

/-- Before a form, no more numbers have been given than after it. -/
theorem nextSerial_le_storeBefore {forms : List Form} {i j : Nat} (le : i ≤ j)
    {before after : Store} (h : s.storeBefore? fuel frame forms i = some before)
    (h' : s.storeBefore? fuel frame forms j = some after) :
    before.nextSerial ≤ after.nextSerial := by
  obtain ⟨pendings, between⟩ := runForms_between le h h'
  exact nextSerial_le_of_runForms between

/-- A structure definition takes a number, so that the next one is higher at every later form. -/
theorem nextSerial_lt_of_struct {forms : List Form} {i j : Nat} (lt : i < j) {name : String}
    {fields : List String} (place : forms[i]? = some (.definition (.struct name fields)))
    {before after : Store} (h : s.storeBefore? fuel frame forms i = some before)
    (h' : s.storeBefore? fuel frame forms j = some after) :
    before.nextSerial < after.nextSerial := by
  obtain ⟨pending, middle, pendings, now, ran⟩ := runForms_after lt place h h'
  obtain ⟨⟨r, after'⟩, defined, built⟩ := Option.bind_eq_some_iff.1 now
  cases built
  calc before.nextSerial
    _ < before.nextSerial + 1 := Nat.lt_succ_self _
    _ = middle.nextSerial := (nextSerial_of_struct defined).symm
    _ ≤ after.nextSerial := nextSerial_le_of_runForms ran

/-- Two structure definitions of one program are not evaluated with one number. -/
theorem nextSerial_ne_of_struct {forms : List Form} {i j : Nat} (ne : j ≠ i)
    {name name' : String} {fields fields' : List String}
    (place : forms[i]? = some (.definition (.struct name fields)))
    (place' : forms[j]? = some (.definition (.struct name' fields'))) {before other : Store}
    (h : s.storeBefore? fuel frame forms i = some before)
    (h' : s.storeBefore? fuel frame forms j = some other) :
    other.nextSerial ≠ before.nextSerial := by
  rcases Nat.lt_or_gt_of_ne ne with earlier | later
  · exact Nat.ne_of_lt (nextSerial_lt_of_struct earlier place' h' h)
  · exact Nat.ne_of_gt (nextSerial_lt_of_struct later place h h')

end Store

/-! ## Full structures -/

/-- Every structure inside the value has as many fields as its type. -/
def Value.IsFull (v : Value) : Prop :=
  ∀ type vs, v.Contains (.struct type vs) → vs.length = type.fields.length

/-- What is inside a sound value is sound. -/
theorem Value.Sound.of_contains {v part : Value} (inside : v.Contains part) (h : v.Sound) :
    part.Sound := by
  induction inside with
  | self v => exact h
  | field mem inside ih =>
    cases h with
    | struct full all => exact ih (all _ mem)

/-- A sound value is full. -/
theorem Value.Sound.isFull {v : Value} (h : v.Sound) : v.IsFull := by
  intro type vs inside
  cases h.of_contains inside with
  | struct full all => exact full

namespace Store

variable {s t : Store} {frame : FrameId} {fuel : Nat}

/-- The frame is sound in every store that is reached. -/
theorem Reached.sound (h : Reached frame s) : s.Sound frame := by
  induction h with
  | fresh s => exact sound_newLibrary s
  | run _ ran ih =>
    obtain ⟨fuel, ran⟩ := ran
    obtain ⟨pendings, passed, -⟩ := run_eq_some_iff.1 ran
    exact (ih.reserveAll _).runForms passed

/-- A frame that is sound in the end has been before. -/
theorem Settles.sound (h : s.Settles t) (sound : t.Sound frame) : s.Sound frame :=
  ⟨h.isHome sound.home, fun name r filled => sound.values name r (h.slot?_filled filled)⟩

/-- A frame is sound at every moment of a run. -/
theorem Sound.moments (sound : s.Sound frame) {forms : List Form} {n : Nat} {stores : List Store}
    (h : s.moments? fuel frame forms n = some stores) : ∀ moment ∈ stores, moment.Sound frame := by
  obtain ⟨rest, found, built⟩ := Option.bind_eq_some_iff.1 h
  cases built
  obtain ⟨pendings, last, ran, advances⟩ := advances_of_stages found
  have soundLast := (sound.reserveAll _).runForms ran
  exact fun moment mem => (advances.settles_last moment mem).sound soundLast

/-- In a sound frame, the values that come up are full. -/
theorem Sound.isFull_of_arises (sound : s.Sound frame) {v : Value} (h : s.Arises frame v) :
    v.IsFull := by
  have values : ∀ name v, s.slot? frame name = some (.filled (.ok v)) → v.Sound :=
    fun name v filled => sound.values name (.ok v) filled v List.mem_cons_self
  exact (sound.home.hereditary_of_arises Value.hereditary_sound values h).2.isFull

/-! ## The promise -/

/-- **Structures obey their laws across a whole run**, in a frame that was made with the library and
has had any programs run in it. Take a structure definition that has bound its names, in a program
that runs there, and the type that it has made.

* At every later moment, the names stand for the functions of the type, and these obey the laws.
* No other structure definition of the program makes the type, and no value that comes up before the
  definition has it inside.
* All values that come up at any moment of the run, and all values in its results, have structures
  with just as many fields as their types. -/
theorem structs_obey_their_laws (reached : Reached frame s) {forms : List Form} {i : Nat}
    {name : String} {fields : List String} {before after : Store}
    (place : forms[i]? = some (.definition (.struct name fields)))
    (arrived : s.storeBefore? fuel frame forms i = some before)
    (bound : before.runDefinition fuel frame (.struct name fields) =
      some (.structBound name, after)) :
    let type := (before.newStruct name fields).1
    (∀ k stores, after.stages? fuel frame ((forms.drop (i + 1)).take k) = some stores →
      ∀ later ∈ after :: stores, later.Provides frame type ∧ type.Laws later) ∧
    (∀ j name' fields' other, j ≠ i → forms[j]? = some (.definition (.struct name' fields')) →
      s.storeBefore? fuel frame forms j = some other →
        (other.newStruct name' fields').1 ≠ type) ∧
    (∀ k earlier, k ≤ i → s.storeBefore? fuel frame forms k = some earlier →
      ∀ v, earlier.Arises frame v → v.TypesBelow type.serial) ∧
    (∀ n stores, s.moments? fuel frame forms n = some stores →
      ∀ moment ∈ stores, ∀ v, moment.Arises frame v → v.IsFull) ∧
    (∀ results last, s.run fuel frame forms = some (results, last) →
      ∀ r ∈ results, ∀ v ∈ r.values, v.IsFull) := by
  intro type
  have numbered := reached.numbered
  have sound := reached.sound
  have there : frame < before.frames.length := (numbered.storeBefore arrived).home.there
  refine ⟨?_, ?_, ?_, ?_, ?_⟩
  · intro k stores found later mem
    obtain ⟨pendings, last, -, advances⟩ := advances_of_stages found
    have settles : after.Settles later := by
      rcases List.mem_cons.1 mem with rfl | mem
      · exact .refl _
      · exact advances.settles_of_mem later mem
    exact ⟨provides_of_settles there bound settles, type.laws later⟩
  · intro j name' fields' other ne place' arrived' same
    exact nextSerial_ne_of_struct ne place place' arrived arrived' (congrArg StructType.serial same)
  · intro k earlier le arrived' v arises
    have below := (numbered.storeBefore arrived').typesBelow_of_arises arises
    exact below.mono (nextSerial_le_storeBefore le arrived' arrived)
  · intro n stores found moment mem v arises
    exact (sound.moments found moment mem).isFull_of_arises arises
  · intro results last ran r mem v inside
    exact (sound.run ran r mem v inside).isFull

/-- Two definitions of structures with one name and one field, in the library. Only the first binds
its names. From then on, also in all stages of the second, the accessor opens structures of the
first and refuses those of the second. -/
theorem structs_of_one_name :
    let s := empty.newLibrary.2
    let struct := Definition.struct "p" ["x"]
    let forms := [Form.definition struct, .definition struct]
    let call := Expr.name "p-x"
    ∃ before after stores other, s.storeBefore? 3 0 forms 0 = some before ∧
      before.runDefinition 3 0 struct = some (.structBound "p", after) ∧
      after.stages? 3 0 [.definition struct] = some stores ∧
      s.storeBefore? 3 0 forms 1 = some other ∧ ∃ p q, p = (before.newStruct "p" ["x"]).1 ∧
        q = (other.newStruct "p" ["x"]).1 ∧ ∀ later ∈ after :: stores, ∀ v,
          (Scope.top 0).lookup later "p-x" = .ok (.accessor p 0) ∧
          later.applyAtFuel 3 (.accessor p 0) [.struct p [v]] call = .result v ∧
          later.applyAtFuel 3 (.accessor p 0) [.struct q [v]] call =
            .error (.about "p-x" (.wrongStruct "p" (.struct q [v]))) := by
  intro s struct forms call
  have reached : Reached 0 s := .fresh empty
  have place : forms[0]? = some (.definition struct) := rfl
  obtain ⟨before, after, stores, other, arrived, bound, found, second⟩ :
      ∃ before after stores other, s.storeBefore? 3 0 forms 0 = some before ∧
        before.runDefinition 3 0 struct = some (.structBound "p", after) ∧
        after.stages? 3 0 [.definition struct] = some stores ∧
        s.storeBefore? 3 0 forms 1 = some other := ⟨_, _, _, _, rfl, rfl, rfl, rfl⟩
  obtain ⟨obeys, apart, -⟩ := structs_obey_their_laws reached place arrived bound
  have ne := apart 1 "p" ["x"] other (by decide) rfl second
  refine ⟨before, after, stores, other, arrived, bound, found, second, _, _, rfl, rfl, ?_⟩
  intro later mem v
  obtain ⟨provides, laws⟩ := obeys 1 stores found later mem
  refine ⟨provides.accessor 0 "x" rfl, laws.access 3 call [v] 0 v rfl, ?_⟩
  exact laws.accessOther 3 call 0 "x" _ rfl fun vs same => ne (Value.struct.inj same).1

end Store

end Tyro
