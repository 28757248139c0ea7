import Tyro.Proofs.Store.Slots

/-!
# Frames that keep to themselves

A frame made by `newLibrary` lies on no other frame, it stays live as long as its maker holds it,
and a program that runs with it as its top level defines all its functions there. `Store.IsHome` is
this invariant. Putting slots into the frame keeps it (`IsHome.setSlot`), as long as the values are
at home there, and so do all the steps of a run that change the store.
-/

namespace Tyro

/-! ## Values at home -/

/-- All functions inside the value that a program defined were defined in the frame. -/
inductive Value.AtHome (frame : FrameId) : Value → Prop
  | string (content : String) : AtHome frame (.string content)
  | number (value : Float) : AtHome frame (.number value)
  | boolean (value : Bool) : AtHome frame (.boolean value)
  | builtin (function : Builtin) : AtHome frame (.builtin function)
  | closure {function : Closure} (here : function.home = frame) : AtHome frame (.closure function)
  | struct (type : StructType) {fields : List Value} (all : ∀ v ∈ fields, AtHome frame v) :
    AtHome frame (.struct type fields)
  | constructor (type : StructType) : AtHome frame (.constructor type)
  | accessor (type : StructType) (index : Nat) : AtHome frame (.accessor type index)
  | predicate (type : StructType) : AtHome frame (.predicate type)

/-- Each entry for a field binds the name that its accessor is printed as. -/
theorem StructType.mem_accessorsFrom {type : StructType} {index : Nat} {fields : List String}
    (rest : type.fields.drop index = fields) {name : String} {v : Value}
    (h : (name, v) ∈ type.accessorsFrom index fields) :
    v.render = name ∧ ∃ i, v = .accessor type i := by
  induction fields generalizing index with
  | nil => cases h
  | cons field fields ih =>
    rcases List.mem_cons.1 h with same | later
    · cases same
      have here : type.fields[index]? = some field := by
        rw [← Nat.add_zero index, ← List.getElem?_drop, rest]
        rfl
      refine ⟨?_, index, rfl⟩
      rw [Value.render, StructType.field, List.getD_eq_getElem?_getD, here, Option.getD_some]
    · refine ih ?_ later
      rw [← List.tail_drop, rest, List.tail_cons]

/-- The functions of a structure type are a constructor, accessors and a predicate, each under the
name that it is printed as. -/
theorem StructType.mem_functions {type : StructType} {name : String} {v : Value}
    (h : (name, v) ∈ type.functions) :
    v.render = name ∧
      (v = .constructor type ∨ (∃ i, v = .accessor type i) ∨ v = .predicate type) := by
  rcases List.mem_append.1 h with front | last
  · rcases List.mem_cons.1 front with same | inside
    · cases same
      exact ⟨by rw [Value.render], .inl rfl⟩
    · exact (type.mem_accessorsFrom rfl inside).imp_right fun is => .inr (.inl is)
  · cases List.mem_singleton.1 last
    exact ⟨by rw [Value.render], .inr (.inr rfl)⟩

/-- The functions of a structure type are at home everywhere. -/
theorem StructType.atHome_functions {frame : FrameId} {type : StructType} {name : String}
    {v : Value} (h : (name, v) ∈ type.functions) : v.AtHome frame := by
  obtain ⟨-, rfl | ⟨i, rfl⟩ | rfl⟩ := type.mem_functions h
  · exact .constructor type
  · exact .accessor type i
  · exact .predicate type

/-- The library binds built-in functions under their names, numbers, and what belongs to points. -/
theorem Store.mem_library {point : StructType} {name : String} {v : Value}
    (h : (name, v) ∈ library point) :
    (∃ f : Builtin, f.name = name ∧ v = .builtin f) ∨ (∃ x, v = .number x) ∨
      (name, v) ∈ point.functions := by
  rcases List.mem_append.1 h with front | struct
  · rcases List.mem_append.1 front with builtin | constant
    · obtain ⟨f, -, same⟩ := List.mem_map.1 builtin
      cases same
      exact .inl ⟨f, rfl, rfl⟩
    · rcases List.mem_cons.1 constant with same | last
      · cases same
        exact .inr (.inl ⟨_, rfl⟩)
      · cases List.mem_singleton.1 last
        exact .inr (.inl ⟨_, rfl⟩)
  · exact .inr (.inr struct)

/-- The library is at home everywhere. -/
theorem Store.atHome_library {frame : FrameId} {point : StructType} {name : String} {v : Value}
    (h : (name, v) ∈ library point) : v.AtHome frame := by
  rcases mem_library h with ⟨f, -, rfl⟩ | ⟨x, rfl⟩ | struct
  · exact .builtin f
  · exact .number x
  · exact point.atHome_functions struct

/-! ## Bindings of a list -/

namespace Bindings

variable {α : Type}

/-- Of the entries of a list for a name the last counts, and it replaces what was bound before. -/
theorem get?_insertAll (b : Bindings α) (entries : List (String × α)) (name : String) :
    (b.insertAll entries).get? name = (find name entries.reverse).or (b.get? name) := by
  induction entries generalizing b with
  | nil => rfl
  | cons entry entries ih =>
    obtain ⟨first, x⟩ := entry
    rw [insertAll, ih, get?_insert, List.reverse_cons, find_append, Option.or_assoc, find]
    congr 1
    by_cases same : first = name
    · rw [if_pos same, if_pos same]
      rfl
    · rw [if_neg same, if_neg same]
      rfl

/-- A list binds each name in it as its last entry does. -/
theorem get?_ofList (entries : List (String × α)) (name : String) :
    (ofList entries).get? name = find name entries.reverse :=
  (get?_insertAll empty entries name).trans Option.or_none

/-- A list binds the names in it. -/
theorem isSome_get?_ofList {entries : List (String × α)} {name : String} :
    ((ofList entries).get? name).isSome = true ↔ name ∈ entries.map Prod.fst := by
  rw [get?_ofList, find_isSome_iff, List.map_reverse, List.mem_reverse]

/-- What a list binds is in the list. -/
theorem mem_of_get?_ofList {entries : List (String × α)} {name : String} {x : α}
    (h : (ofList entries).get? name = some x) : (name, x) ∈ entries := by
  rw [get?_ofList] at h
  exact List.mem_reverse.1 (mem_of_find h)

end Bindings

/-- What a name comes to that has the slot. -/
def Slot.meaning (name : String) : Option Slot → Except EvalError Value
  | some (.filled result) => result
  | some .reserved => .error (.about name .definedLater)
  | none => .error (.about name .undefined)

namespace Store

variable {s : Store} {frame : FrameId}

/-! ## Home frames -/

/-- The frame lies on no other, is live, and all values in it are at home there. -/
structure IsHome (s : Store) (frame : FrameId) : Prop where
  there : frame < s.frames.length
  alone : s.chain frame = [frame]
  live : s.isLive frame = true
  values : ∀ name v, s.slot? frame name = some (.filled (.ok v)) → v.AtHome frame

/-- A frame is live if it is held, or lies under one that is. -/
theorem isLive_iff {s : Store} {frame : FrameId} :
    s.isLive frame = true ↔ ∃ id f, s.frames[id]? = some f ∧ f.held = true ∧
      (frame = id ∨ frame ∈ f.outers) := by
  unfold isLive
  rw [List.any_eq_true]
  constructor
  · rintro ⟨⟨f, id⟩, mem, held⟩
    refine ⟨id, f, List.mem_zipIdx_iff_getElem?.1 mem, ?_⟩
    simpa using held
  · rintro ⟨id, f, found, held⟩
    refine ⟨(f, id), List.mem_zipIdx_iff_getElem?.2 found, ?_⟩
    simpa using held

/-- Putting a slot into a frame changes no more than the bindings of frames. -/
theorem getElem?_setSlot {s : Store} {id : FrameId} {f : Frame} (found : s.frames[id]? = some f)
    (frame : FrameId) (name : String) (slot : Slot) :
    ∃ bindings, (s.setSlot frame name slot).frames[id]? = some ⟨f.outers, bindings, f.held⟩ := by
  unfold setSlot modify
  dsimp only
  rw [List.getElem?_modify, found]
  by_cases same : frame = id
  · exact ⟨f.bindings.insert name slot, congrArg some (if_pos same)⟩
  · exact ⟨f.bindings, congrArg some (if_neg same)⟩

/-- A slot whose value is at home can be put into the frame. -/
theorem IsHome.setSlot (home : s.IsHome frame) (name : String) {slot : Slot}
    (value : ∀ v, slot = .filled (.ok v) → v.AtHome frame) :
    (s.setSlot frame name slot).IsHome frame := by
  obtain ⟨there, alone, live, values⟩ := home
  refine ⟨by rwa [length_setSlot], ?_, ?_, fun other v found => ?_⟩
  · have here := List.getElem?_eq_getElem there
    obtain ⟨bindings, kept⟩ := getElem?_setSlot here frame name slot
    unfold chain at alone ⊢
    rw [here] at alone
    rw [kept]
    exact alone
  · obtain ⟨id, f, found, held, under⟩ := isLive_iff.1 live
    obtain ⟨bindings, kept⟩ := getElem?_setSlot found frame name slot
    exact isLive_iff.2 ⟨id, _, kept, held, under⟩
  · rw [slot?_setSlot there] at found
    split at found
    · exact value v (Option.some.inj found)
    · exact values other v found

/-- Names can be reserved in the frame. -/
theorem IsHome.reserve (home : s.IsHome frame) (name : String) :
    (s.reserve frame name).IsHome frame := by
  unfold Store.reserve
  split
  · exact home
  · exact home.setSlot name nofun

/-- Several names can be reserved in the frame. -/
theorem IsHome.reserveAll (home : s.IsHome frame) (names : List String) :
    (s.reserveAll frame names).IsHome frame := by
  induction names generalizing s with
  | nil => exact home
  | cons name names ih => exact ih (home.reserve name)

/-- Structure types can be made. -/
theorem IsHome.newStruct (home : s.IsHome frame) (struct : String) (fields : List String) :
    (s.newStruct struct fields).2.IsHome frame :=
  ⟨home.there, home.alone, home.live, home.values⟩

/-- A name can be filled with a value that is at home. -/
theorem IsHome.fill (home : s.IsHome frame) {name : String} {result : Except EvalError Value}
    (value : ∀ v, result = .ok v → v.AtHome frame) {s' : Store}
    (h : s.fill frame name result = .ok s') : s'.IsHome frame := by
  obtain ⟨-, rfl⟩ := fill_eq_ok_iff.1 h
  refine home.setSlot name fun v same => ?_
  cases same
  exact value v rfl

/-- Several names can be filled with values that are at home. -/
theorem IsHome.fillAll (home : s.IsHome frame) {entries : List (String × Value)}
    (values : ∀ name v, (name, v) ∈ entries → v.AtHome frame) :
    (s.fillAll frame entries).2.IsHome frame := by
  induction entries generalizing s with
  | nil => exact home
  | cons entry entries ih =>
    obtain ⟨name, v⟩ := entry
    have later : ∀ other w, (other, w) ∈ entries → w.AtHome frame :=
      fun other w mem => values other w (List.mem_cons_of_mem _ mem)
    unfold Store.fillAll
    cases filled : s.fill frame name (.ok v) with
    | error e => exact ih home later
    | ok s' =>
      refine ih (home.fill ?_ filled) later
      rintro w ⟨⟩
      exact values name v List.mem_cons_self

/-- The frame that is made with the library. -/
theorem getElem?_newLibrary (s : Store) :
    s.newLibrary.2.frames[s.newLibrary.1]? =
      some ⟨[], .ofList ((library (s.newStruct "posn" ["x", "y"]).1).map
        fun (name, v) => (name, .filled (.ok v))), true⟩ :=
  List.getElem?_concat_length

/-- A frame with the library has the values of the library and nothing else. -/
theorem slot?_newLibrary {s : Store} {name : String} {slot : Slot}
    (h : s.newLibrary.2.slot? s.newLibrary.1 name = some slot) :
    ∃ v, slot = .filled (.ok v) ∧ (name, v) ∈ library (s.newStruct "posn" ["x", "y"]).1 := by
  unfold slot? at h
  rw [getElem?_newLibrary] at h
  obtain ⟨⟨other, v⟩, mem, same⟩ := List.mem_map.1 (Bindings.mem_of_get?_ofList h)
  cases same
  exact ⟨v, rfl, mem⟩

/-- A frame with the library is a home. -/
theorem isHome_newLibrary (s : Store) : s.newLibrary.2.IsHome s.newLibrary.1 := by
  refine ⟨?_, ?_, ?_, fun name v filled => ?_⟩
  · change s.frames.length < (s.frames ++ [_]).length
    rw [List.length_append]
    exact Nat.lt_succ_self _
  · unfold chain
    rw [getElem?_newLibrary]
  · exact isLive_iff.2 ⟨_, _, getElem?_newLibrary s, rfl, .inl rfl⟩
  · obtain ⟨w, same, mem⟩ := slot?_newLibrary filled
    cases same
    exact atHome_library mem

/-- The store has at least the values of another in the frame. -/
def Keeps (s t : Store) (frame : FrameId) : Prop :=
  ∀ name v, s.slot? frame name = some (.filled (.ok v)) →
    t.slot? frame name = some (.filled (.ok v))

/-- A store keeps its own values. -/
theorem Keeps.refl (s : Store) (frame : FrameId) : s.Keeps s frame := fun _ _ filled => filled

/-- What is kept on a way of two parts is kept. -/
theorem Keeps.trans {middle last : Store} (first : s.Keeps middle frame)
    (second : middle.Keeps last frame) : s.Keeps last frame :=
  fun name v filled => second name v (first name v filled)

/-- Reserving keeps values. -/
theorem keeps_reserveAll (there : frame < s.frames.length) (names : List String) :
    s.Keeps (s.reserveAll frame names) frame := by
  intro name v filled
  rw [slot?_reserveAll there, filled]
  rfl

/-- What a name means in a home frame is the slot that the frame itself has. -/
theorem IsHome.lookup (home : s.IsHome frame) (name : String) :
    s.lookup frame name = s.slot? frame name := by
  unfold Store.lookup
  rw [home.alone, List.findSome?_cons]
  cases s.slot? frame name <;> rfl

/-- So the slot decides what an expression comes to that is a name. -/
theorem IsHome.meaning (home : s.IsHome frame) (name : String) :
    (Scope.top frame).lookup s name = Slot.meaning name (s.slot? frame name) := by
  unfold Scope.lookup
  dsimp only [Scope.top]
  rw [Bindings.get?_empty, home.lookup]
  rfl

end Store

end Tyro
