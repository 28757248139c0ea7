import Tyro.Program.Run

/-!
# What the steps of a run do to slots

A run touches only the slots of its own frame. Reserving gives a slot to a name that has none
(`slot?_reserveAll`), and filling turns a reserved slot into a filled one and nothing else. What
becomes of a slot when a result arrives for its name is `Slot.receive`; filling several names lets
each slot receive the first result for its name (`slot?_fillAll`), since the second one finds the
slot filled. A name that is filled already, or for the second time, is a clash, and the first one is
reported (`fillAll_fst_eq_some_iff`). `Binds` says in which ways a definition of one name can end.
-/

namespace Tyro

/-- What becomes of a slot when a result arrives for its name, or none does. -/
def Slot.receive : Option Slot → Option (Except EvalError Value) → Option Slot
  | some .reserved, some result => some (.filled result)
  | slot, _ => slot

/-- A slot that receives nothing stays as it is. -/
@[simp] theorem Slot.receive_none (slot : Option Slot) : receive slot none = slot := by
  unfold receive
  split
  · next absurd => cases absurd
  · rfl

/-- A filled slot stays as it is. -/
@[simp] theorem Slot.receive_filled (r : Except EvalError Value)
    (result : Option (Except EvalError Value)) :
    receive (some (.filled r)) result = some (.filled r) := rfl

/-- A name without a slot gets none from a result. -/
@[simp] theorem Slot.receive_absent (result : Option (Except EvalError Value)) :
    receive none result = none := rfl

/-- A result that arrives neither adds a slot nor takes one away. -/
theorem Slot.isSome_receive_eq (slot : Option Slot) (result : Option (Except EvalError Value)) :
    (receive slot result).isSome = slot.isSome := by
  rcases slot with _ | _ | _ <;> cases result <;> rfl

/-- No slot is lost when a result arrives. -/
theorem Slot.isSome_receive {slot : Option Slot} (has : slot.isSome = true)
    (result : Option (Except EvalError Value)) : (receive slot result).isSome = true := by
  rw [isSome_receive_eq, has]

/-- Of two results that arrive one after the other, the first counts. -/
theorem Slot.receive_receive (slot : Option Slot) (first second : Option (Except EvalError Value)) :
    receive (receive slot first) second = receive slot (first.or second) := by
  rcases slot with _ | _ | r <;> cases first <;> rfl

/-- In two lists one after the other, an entry of the first counts. -/
theorem Bindings.find_append {α : Type} (name : String) (es fs : List (String × α)) :
    find name (es ++ fs) = (find name es).or (find name fs) := by
  induction es with
  | nil => rfl
  | cons entry es ih =>
    obtain ⟨other, x⟩ := entry
    rw [List.cons_append, find, find]
    by_cases same : other = name
    · rw [if_pos same, if_pos same]
      rfl
    · rw [if_neg same, if_neg same, ih]

/-- A name has no entry exactly if it is none of the names. -/
theorem Bindings.find_eq_none_iff {α : Type} {name : String} {es : List (String × α)} :
    find name es = none ↔ name ∉ es.map Prod.fst := by
  rw [← find_isSome_iff, Option.not_isSome_iff_eq_none]

/-- What is found for a name is one of its entries. -/
theorem Bindings.mem_of_find {α : Type} {name : String} {es : List (String × α)} {x : α}
    (h : find name es = some x) : (name, x) ∈ es := by
  induction es with
  | nil => cases h
  | cons entry es ih =>
    obtain ⟨other, y⟩ := entry
    rw [find] at h
    split at h
    · next same =>
      cases h
      exact List.mem_cons.2 (.inl (same ▸ rfl))
    · exact List.mem_cons_of_mem _ (ih h)

namespace Store

variable {s : Store} {frame : FrameId}

/-! ## One slot -/

/-- Changing a frame leaves the number of frames. -/
@[simp] theorem length_setSlot (s : Store) (frame : FrameId) (name : String) (slot : Slot) :
    (s.setSlot frame name slot).frames.length = s.frames.length :=
  List.length_modify ..

/-- A slot that is put into a frame is there, and the other slots of the frame are as before. -/
theorem slot?_setSlot (there : frame < s.frames.length) (name other : String) (slot : Slot) :
    (s.setSlot frame name slot).slot? frame other =
      if name = other then some slot else s.slot? frame other := by
  unfold slot? setSlot modify
  rw [List.getElem?_modify_eq, List.getElem?_eq_getElem there]
  exact Bindings.get?_insert _ name other slot

/-- Making a structure type changes no slot. -/
@[simp] theorem slot?_newStruct (s : Store) (frame : FrameId) (struct : String)
    (fields : List String) (name : String) :
    (s.newStruct struct fields).2.slot? frame name = s.slot? frame name := rfl

/-! ## Reserving -/

/-- Reserving leaves the number of frames. -/
@[simp] theorem length_reserve (s : Store) (frame : FrameId) (name : String) :
    (s.reserve frame name).frames.length = s.frames.length := by
  unfold reserve
  split
  · rfl
  · exact length_setSlot ..

/-- Reserving a name gives it a slot if it has none. -/
theorem slot?_reserve (there : frame < s.frames.length) (name other : String) :
    (s.reserve frame name).slot? frame other =
      (s.slot? frame other).or (if name = other then some .reserved else none) := by
  unfold reserve
  cases found : s.slot? frame name with
  | some slot =>
    by_cases same : name = other
    · rw [← same, found]
      rfl
    · rw [if_neg same, Option.or_none]
  | none =>
    dsimp only
    rw [slot?_setSlot there]
    by_cases same : name = other
    · rw [if_pos same, if_pos same, ← same, found]
      rfl
    · rw [if_neg same, if_neg same, Option.or_none]

/-- Reserving several names leaves the number of frames. -/
@[simp] theorem length_reserveAll (s : Store) (frame : FrameId) (names : List String) :
    (s.reserveAll frame names).frames.length = s.frames.length := by
  induction names generalizing s with
  | nil => rfl
  | cons name names ih => exact (ih (s.reserve frame name)).trans (length_reserve s frame name)

/-- Reserving several names gives a slot to those that have none. -/
theorem slot?_reserveAll (there : frame < s.frames.length) (names : List String) (name : String) :
    (s.reserveAll frame names).slot? frame name =
      (s.slot? frame name).or (if name ∈ names then some .reserved else none) := by
  induction names generalizing s with
  | nil => exact Option.or_none.symm
  | cons first names ih =>
    have there' : frame < (s.reserve frame first).frames.length := by rwa [length_reserve]
    change ((s.reserve frame first).reserveAll frame names).slot? frame name = _
    rw [ih there', slot?_reserve there, Option.or_assoc]
    congr 1
    by_cases same : first = name
    · rw [if_pos same, if_pos (List.mem_cons.2 (.inl same.symm))]
      rfl
    · rw [if_neg same, Option.none_or]
      simp only [List.mem_cons, Ne.symm same, false_or]

/-- Reserving several names gives each of them a slot. -/
theorem isSome_slot?_reserveAll (there : frame < s.frames.length) {names : List String}
    {name : String} (mem : name ∈ names) :
    ((s.reserveAll frame names).slot? frame name).isSome = true := by
  rw [slot?_reserveAll there, if_pos mem, Option.isSome_or, Option.isSome_some, Bool.or_true]

/-- What a name is filled with after reserving, it was filled with before. -/
theorem slot?_of_reserveAll (there : frame < s.frames.length) {names : List String} {name : String}
    {result : Except EvalError Value}
    (filled : (s.reserveAll frame names).slot? frame name = some (.filled result)) :
    s.slot? frame name = some (.filled result) := by
  rw [slot?_reserveAll there, Option.or_eq_some_iff] at filled
  rcases filled with before | ⟨-, reserved⟩
  · exact before
  · split at reserved <;> cases reserved

/-- Names are reserved one list after the other. -/
theorem reserveAll_append (s : Store) (frame : FrameId) (names others : List String) :
    s.reserveAll frame (names ++ others) = (s.reserveAll frame names).reserveAll frame others :=
  List.foldl_append

/-! ## Filling -/

/-- Filling succeeds exactly for a reserved name, and then puts the result into its slot. -/
theorem fill_eq_ok_iff {name : String} {result : Except EvalError Value} {s' : Store} :
    s.fill frame name result = .ok s' ↔
      s.slot? frame name = some .reserved ∧ s' = s.setSlot frame name (.filled result) := by
  unfold fill
  split
  · next reserved => simp [reserved, eq_comm]
  · next filled => simp [filled]
  · next absent => simp [absent]

/-- Filling a name lets its slot receive the result. -/
theorem slot?_fill (there : frame < s.frames.length) {name : String}
    {result : Except EvalError Value} {s' : Store} (h : s.fill frame name result = .ok s')
    (other : String) :
    s'.slot? frame other =
      Slot.receive (s.slot? frame other) (Bindings.find other [(name, result)]) := by
  obtain ⟨reserved, rfl⟩ := fill_eq_ok_iff.1 h
  rw [slot?_setSlot there, Bindings.find]
  by_cases same : name = other
  · rw [if_pos same, if_pos same, ← same, reserved]
    rfl
  · rw [if_neg same, if_neg same, Bindings.find, Slot.receive_none]

/-- Where filling is refused, the slot could not have received the result. -/
theorem receive_of_fill_error {name : String} {result : Except EvalError Value} {e : BindingError}
    (h : s.fill frame name result = .error e) (other : String) :
    Slot.receive (s.slot? frame other) (Bindings.find other [(name, result)]) =
      s.slot? frame other := by
  unfold fill at h
  rw [Bindings.find]
  by_cases same : name = other
  · rw [if_pos same, ← same]
    cases found : s.slot? frame name with
    | none => rfl
    | some slot =>
      rw [found] at h
      cases slot with
      | reserved => cases h
      | filled r => rfl
  · rw [if_neg same, Bindings.find, Slot.receive_none]

/-- Filling leaves the number of frames. -/
theorem length_fill {name : String} {result : Except EvalError Value} {s' : Store}
    (h : s.fill frame name result = .ok s') : s'.frames.length = s.frames.length := by
  obtain ⟨-, rfl⟩ := fill_eq_ok_iff.1 h
  exact length_setSlot ..

/-- The results with which several names are filled. -/
def resultsOf (entries : List (String × Value)) : List (String × Except EvalError Value) :=
  entries.map fun entry => (entry.1, .ok entry.2)

/-- The names that are filled. -/
theorem map_fst_resultsOf (entries : List (String × Value)) :
    (resultsOf entries).map Prod.fst = entries.map Prod.fst := by
  rw [resultsOf, List.map_map]
  rfl

/-- Filling several names leaves the number of frames. -/
@[simp] theorem length_fillAll (s : Store) (frame : FrameId) (entries : List (String × Value)) :
    (s.fillAll frame entries).2.frames.length = s.frames.length := by
  induction entries generalizing s with
  | nil => rfl
  | cons entry entries ih =>
    obtain ⟨name, v⟩ := entry
    unfold fillAll
    cases filled : s.fill frame name (.ok v) with
    | ok s' => exact (ih s').trans (length_fill filled)
    | error e => exact ih s

/-- Filling several names lets each slot receive the first result for its name. -/
theorem slot?_fillAll (there : frame < s.frames.length) (entries : List (String × Value))
    (other : String) :
    (s.fillAll frame entries).2.slot? frame other =
      Slot.receive (s.slot? frame other) (Bindings.find other (resultsOf entries)) := by
  induction entries generalizing s with
  | nil => exact (Slot.receive_none _).symm
  | cons entry entries ih =>
    obtain ⟨name, v⟩ := entry
    have cut : resultsOf ((name, v) :: entries) = [(name, .ok v)] ++ resultsOf entries := rfl
    unfold fillAll
    rw [cut, Bindings.find_append, ← Slot.receive_receive]
    cases filled : s.fill frame name (.ok v) with
    | ok s' =>
      have there' : frame < s'.frames.length := by rwa [length_fill filled]
      dsimp only
      rw [ih there', slot?_fill there filled]
    | error e =>
      dsimp only
      rw [ih there, receive_of_fill_error filled]

/-- How a definition of one name ends that has a result for it: the name is refused, or it is filled
with the result, which the definition reports. -/
inductive Binds (s : Store) (frame : FrameId) (name : String) :
    Except EvalError Value → FormResult → Store → Prop
  | refused {result : Except EvalError Value} {e : BindingError}
    (refusal : s.fill frame name result = .error e) : Binds s frame name result (.unbound e) s
  | bound {v : Value} (reserved : s.slot? frame name = some .reserved) :
    Binds s frame name (.ok v) (.bound name v) (s.setSlot frame name (.filled (.ok v)))
  | failed {e : EvalError} (reserved : s.slot? frame name = some .reserved) :
    Binds s frame name (.error e) (.unbound (.value e)) (s.setSlot frame name (.filled (.error e)))

/-- A definition of a constant evaluates the body and binds the name. -/
theorem runDefinition_constant {fuel : Nat} {name : String} {body : Expr} {r : FormResult}
    {t : Store} (h : s.runDefinition fuel frame (.constant name body) = some (r, t)) :
    ∃ result, s.eval? fuel frame body = some result ∧ s.Binds frame name result r t := by
  obtain ⟨result, evaluated, h⟩ := Option.bind_eq_some_iff.1 h
  refine ⟨result, evaluated, ?_⟩
  cases filled : s.fill frame name result with
  | error e =>
    rw [filled] at h
    cases h
    exact .refused filled
  | ok after =>
    rw [filled] at h
    obtain ⟨reserved, rfl⟩ := fill_eq_ok_iff.1 filled
    cases result with
    | ok v =>
      cases h
      exact .bound reserved
    | error e =>
      cases h
      exact .failed reserved

/-- A definition of a function binds the name to it. -/
theorem runDefinition_function {fuel : Nat} {name : String} {params : List String} {body : Expr}
    {r : FormResult} {t : Store}
    (h : s.runDefinition fuel frame (.function name params body) = some (r, t)) :
    s.Binds frame name (.ok (.closure ⟨name, params, body, frame⟩)) r t := by
  simp only [runDefinition] at h
  cases filled : s.fill frame name (.ok (.closure ⟨name, params, body, frame⟩)) with
  | error e =>
    rw [filled] at h
    cases h
    exact .refused filled
  | ok after =>
    rw [filled] at h
    cases h
    obtain ⟨reserved, rfl⟩ := fill_eq_ok_iff.1 filled
    exact .bound reserved

/-- Where a name is bound, its slot receives the result, and no other slot changes. -/
theorem Binds.slots (there : frame < s.frames.length) {name : String}
    {result : Except EvalError Value} {r : FormResult} {t : Store}
    (h : s.Binds frame name result r t) :
    t.frames.length = s.frames.length ∧ ∀ other, t.slot? frame other =
      Slot.receive (s.slot? frame other) (Bindings.find other [(name, result)]) := by
  cases h with
  | refused refusal => exact ⟨rfl, fun other => (receive_of_fill_error refusal other).symm⟩
  | bound reserved | failed reserved =>
    exact ⟨length_setSlot .., slot?_fill there (fill_eq_ok_iff.2 ⟨reserved, rfl⟩)⟩

/-- A structure definition fills the names of a new type. -/
theorem runDefinition_struct (s : Store) (fuel : Nat) (frame : FrameId) (name : String)
    (fields : List String) :
    s.runDefinition fuel frame (.struct name fields) =
      some (((s.newStruct name fields).2.fillAll frame
          (s.newStruct name fields).1.functions).1.elim (.structBound name) .unbound,
        ((s.newStruct name fields).2.fillAll frame (s.newStruct name fields).1.functions).2) := by
  unfold runDefinition
  dsimp only
  split <;> next filled => rw [filled]; rfl

/-- The names of a structure have slots with its new type if they have slots before. -/
theorem isSome_slot?_newStruct {name : String} {fields : List String}
    (has : ∀ other ∈ structNames name fields, (s.slot? frame other).isSome = true) :
    ∀ other ∈ (s.newStruct name fields).1.functions.map Prod.fst,
      ((s.newStruct name fields).2.slot? frame other).isSome = true := by
  rw [StructType.map_fst_functions]
  exact has

/-! ## Clashes -/

/-- The frame itself has a filled slot for the name. -/
def IsFilled (s : Store) (frame : FrameId) (name : String) : Prop :=
  ∃ result, s.slot? frame name = some (.filled result)

end Store

/-- A name is the first of several that is taken already or occurs a second time. -/
def IsFirstClash (taken : String → Prop) (names : List String) (name : String) : Prop :=
  ∃ before after, names = before ++ name :: after ∧ (taken name ∨ name ∈ before) ∧
    before.Nodup ∧ ∀ other ∈ before, ¬ taken other

/-- Among no names there is no clash. -/
theorem isFirstClash_nil {taken : String → Prop} {name : String} :
    ¬ IsFirstClash taken [] name := by
  rintro ⟨before, after, parted, -⟩
  exact absurd parted.symm (List.append_ne_nil_of_right_ne_nil before (List.cons_ne_nil _ _))

/-- A taken name at the front is the first clash. Any other one is taken from there on. -/
theorem isFirstClash_cons {taken : String → Prop} {first name : String} {names : List String} :
    IsFirstClash taken (first :: names) name ↔
      taken first ∧ name = first ∨
        ¬ taken first ∧ IsFirstClash (fun other => other = first ∨ taken other) names name := by
  constructor
  · rintro ⟨before, after, split, clash, distinct, free⟩
    cases before with
    | nil =>
      obtain ⟨rfl, -⟩ := List.cons.inj split
      exact .inl ⟨clash.resolve_right List.not_mem_nil, rfl⟩
    | cons head before =>
      obtain ⟨rfl, rest⟩ := List.cons.inj split
      obtain ⟨new, distinct⟩ := List.nodup_cons.1 distinct
      refine .inr ⟨free first List.mem_cons_self, before, after, rest, ?_, distinct, ?_⟩
      · rw [List.mem_cons] at clash
        rcases clash with earlier | same | inside
        · exact .inl (.inr earlier)
        · exact .inl (.inl same)
        · exact .inr inside
      · rintro other mem (rfl | earlier)
        · exact new mem
        · exact free other (List.mem_cons_of_mem _ mem) earlier
  · rintro (⟨clash, rfl⟩ | ⟨new, before, after, rfl, clash, distinct, free⟩)
    · exact ⟨[], names, rfl, .inl clash, List.nodup_nil, nofun⟩
    · refine ⟨first :: before, after, rfl, ?_, ?_, ?_⟩
      · rcases clash with (same | earlier) | inside
        · exact .inr (List.mem_cons.2 (.inl same))
        · exact .inl earlier
        · exact .inr (List.mem_cons_of_mem first inside)
      · exact List.nodup_cons.2 ⟨fun mem => free first mem (.inl rfl), distinct⟩
      · intro other mem earlier
        rcases List.mem_cons.1 mem with rfl | inside
        · exact new earlier
        · exact free other inside (.inr earlier)

/-- What counts as taken may be put in other words. -/
theorem isFirstClash_congr {taken taken' : String → Prop} {names : List String}
    (same : ∀ name ∈ names, taken name ↔ taken' name) (name : String) :
    IsFirstClash taken names name ↔ IsFirstClash taken' names name := by
  induction names generalizing taken taken' with
  | nil => exact iff_of_false isFirstClash_nil isFirstClash_nil
  | cons first names ih =>
    rw [isFirstClash_cons, isFirstClash_cons, same first List.mem_cons_self]
    have later : ∀ other ∈ names, (other = first ∨ taken other) ↔ (other = first ∨ taken' other) :=
      fun other mem => or_congr_right (same other (List.mem_cons_of_mem first mem))
    rw [ih later]

namespace Store

variable {s : Store} {frame : FrameId}

/-- Filling is refused for a name that is filled, and for one that has no slot. -/
theorem fill_refused_iff {name : String} {result : Except EvalError Value} {e : BindingError} :
    s.fill frame name result = .error e ↔
      s.IsFilled frame name ∧ e = .alreadyDefined name ∨
        s.slot? frame name = none ∧ e = .notReserved name := by
  unfold fill IsFilled
  cases s.slot? frame name with
  | none => simp [eq_comm]
  | some slot => cases slot <;> simp [eq_comm]

/-- Filling a name that has a slot is refused exactly if the slot is filled. -/
theorem fill_eq_error_iff {name : String} (reserved : (s.slot? frame name).isSome = true)
    {result : Except EvalError Value} {e : BindingError} :
    s.fill frame name result = .error e ↔ s.IsFilled frame name ∧ e = .alreadyDefined name := by
  refine fill_refused_iff.trans (or_iff_left ?_)
  rintro ⟨absent, -⟩
  rw [absent] at reserved
  cases reserved

/-- A reserved name is not filled. -/
theorem not_isFilled_of_reserved {name : String} (reserved : s.slot? frame name = some .reserved) :
    ¬ s.IsFilled frame name := by
  rintro ⟨r, taken⟩
  rw [taken] at reserved
  cases reserved

/-- A name that can be filled is not filled yet. -/
theorem not_isFilled_of_fill {name : String} {result : Except EvalError Value} {s' : Store}
    (h : s.fill frame name result = .ok s') : ¬ s.IsFilled frame name :=
  not_isFilled_of_reserved (fill_eq_ok_iff.1 h).1

/-- A definition of one name that has a slot is refused exactly if the slot is filled. -/
theorem Binds.alreadyDefined_iff {name : String} (has : (s.slot? frame name).isSome = true)
    {result : Except EvalError Value} {r : FormResult} {t : Store}
    (h : s.Binds frame name result r t) (other : String) :
    r = .unbound (.alreadyDefined other) ↔ s.IsFilled frame name ∧ other = name := by
  cases h with
  | refused refusal =>
    obtain ⟨taken, rfl⟩ := (fill_eq_error_iff has).1 refusal
    simp [taken, eq_comm]
  | bound reserved | failed reserved => simp [not_isFilled_of_reserved reserved]

/-- After a name is filled, it is filled besides those that were before. -/
theorem isFilled_fill (there : frame < s.frames.length) {name : String}
    {result : Except EvalError Value} {s' : Store} (h : s.fill frame name result = .ok s')
    (other : String) : s'.IsFilled frame other ↔ other = name ∨ s.IsFilled frame other := by
  obtain ⟨-, rfl⟩ := fill_eq_ok_iff.1 h
  unfold IsFilled
  rw [slot?_setSlot there]
  by_cases same : name = other
  · simp [same]
  · simp [same, Ne.symm same]

/-- Filling never takes a slot away. -/
theorem isSome_slot?_fill (there : frame < s.frames.length) {name : String}
    {result : Except EvalError Value} {s' : Store} (h : s.fill frame name result = .ok s')
    {other : String} (has : (s.slot? frame other).isSome = true) :
    (s'.slot? frame other).isSome = true := by
  obtain ⟨-, rfl⟩ := fill_eq_ok_iff.1 h
  rw [slot?_setSlot there]
  split
  · rfl
  · exact has

/-- Filling names that have slots is refused exactly if there is a clash, and the first one is
reported. -/
theorem fillAll_fst_eq_some_iff (there : frame < s.frames.length) {entries : List (String × Value)}
    (reserved : ∀ name ∈ entries.map Prod.fst, (s.slot? frame name).isSome = true)
    {e : BindingError} :
    (s.fillAll frame entries).1 = some e ↔
      ∃ name, IsFirstClash (s.IsFilled frame) (entries.map Prod.fst) name ∧
        e = .alreadyDefined name := by
  induction entries generalizing s with
  | nil =>
    refine iff_of_false nofun ?_
    rintro ⟨name, clash, -⟩
    exact isFirstClash_nil clash
  | cons entry entries ih =>
    obtain ⟨first, v⟩ := entry
    have has := reserved first List.mem_cons_self
    unfold fillAll
    cases filled : s.fill frame first (.ok v) with
    | error refusal =>
      obtain ⟨taken, rfl⟩ := (fill_eq_error_iff has).1 filled
      simp only [List.map_cons, isFirstClash_cons]
      constructor
      · rintro ⟨⟩
        exact ⟨first, .inl ⟨taken, rfl⟩, rfl⟩
      · rintro ⟨name, ⟨-, rfl⟩ | ⟨free, -⟩, rfl⟩
        · rfl
        · exact absurd taken free
    | ok s' =>
      have free := not_isFilled_of_fill filled
      have there' : frame < s'.frames.length := by rwa [length_fill filled]
      have reserved' : ∀ name ∈ entries.map Prod.fst, (s'.slot? frame name).isSome = true :=
        fun name mem => isSome_slot?_fill there filled (reserved name (List.mem_cons_of_mem _ mem))
      dsimp only
      rw [ih there' reserved']
      refine exists_congr fun name => and_congr_left fun _ => ?_
      rw [List.map_cons, isFirstClash_cons,
        isFirstClash_congr fun other _ => isFilled_fill there filled other]
      exact ⟨fun clash => .inr ⟨free, clash⟩, fun clash => (clash.resolve_left fun h => free h.1).2⟩

end Store

end Tyro
