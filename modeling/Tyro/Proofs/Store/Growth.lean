import Tyro.Proofs.Eval.Follows

/-!
# A store and the same store with more names reserved

`Store.Grows names stored frame s t` relates the store `s` of a run to the store `t` of a run of a
longer program, whose further names are reserved from the start. The two hold the same values. Where
`s` has no slot for one of the further names, `t` has a reserved one, and so an evaluation that
fails in `s` because such a name is not defined fails in `t` because it is defined later. Errors
that were in a slot before both runs, the `stored` ones, stay as they are.

Evaluating in both stores keeps this correspondence (`Grows.eval?`), and filling a name in both does
(`Grows.fill`, `Grows.fillAll`). If the same is filled into a store and into the store with names
reserved, these are still one the other with the names reserved (`fill_reserveAll`).
-/

namespace Tyro

/-- The error as it is in a program that binds further names: a name among them is no longer
undefined, but defined later. -/
def EvalError.later (names : List String) (e : EvalError) : EvalError :=
  match e with
  | ⟨.name name, .undefined⟩ => if name ∈ names then .about name .definedLater else e
  | _ => e

/-- Only the error that a name is not defined is another one. -/
theorem EvalError.later_of_ne {e : EvalError} (defined : e.fault ≠ .undefined)
    (names : List String) : e.later names = e := by
  unfold later
  split
  · exact absurd rfl defined
  · rfl

/-- A name among the further ones is defined later. -/
theorem EvalError.later_undefined (names : List String) (name : String) :
    (about name .undefined).later names =
      if name ∈ names then about name .definedLater else about name .undefined := rfl

/-- The errors that may come of one in a program that binds further names. -/
def EvalError.Grown (names : List String) (stored : EvalError → Prop) (e e' : EvalError) : Prop :=
  e' = e.later names ∨ e' = e ∧ stored e

/-- The results that may come of one in a program that binds further names. -/
def Grown (names : List String) (stored : EvalError → Prop) :
    Except EvalError Value → Except EvalError Value → Prop
  | .ok v, result => result = .ok v
  | .error e, result => ∃ e', result = .error e' ∧ e.Grown names stored e'

/-- The slots that may come of one in a program that binds further names. -/
inductive Slot.Grown (names : List String) (stored : EvalError → Prop) (name : String) :
    Option Slot → Option Slot → Prop
  | absent (no : name ∉ names) : Slot.Grown names stored name none none
  | later (yes : name ∈ names) : Slot.Grown names stored name none (some .reserved)
  | reserved : Slot.Grown names stored name (some .reserved) (some .reserved)
  | filled {result result' : Except EvalError Value}
    (grown : Tyro.Grown names stored result result') :
    Slot.Grown names stored name (some (.filled result)) (some (.filled result'))

namespace Store

/-- The second store is what the first one is in a run of a program that binds further names. -/
structure Grows (names : List String) (stored : EvalError → Prop) (frame : FrameId) (s t : Store) :
    Prop where
  home : s.IsHome frame
  home' : t.IsHome frame
  serial : t.nextSerial = s.nextSerial
  slots : ∀ name, Slot.Grown names stored name (s.slot? frame name) (t.slot? frame name)

variable {names : List String} {stored : EvalError → Prop} {frame : FrameId} {s t : Store}

/-! ## Evaluating -/

/-- What comes of an error is no result, and other errors than that a name is not defined stay. -/
theorem tolerant_grown : Tolerant (fun v w => w = v ∧ v.AtHome frame)
    fun e other => ∃ e', other = some e' ∧ e.Grown names stored e' where
  corresponding e e' corresponds := by
    refine ⟨e', rfl, .inl ?_⟩
    have same : e' = e := corresponds.eq fun _ _ related => related.1
    rw [same, e.later_of_ne corresponds.defined names]
  any e missing := by
    obtain ⟨e', absurd, -⟩ := missing
    cases absurd

/-- A name is answered in the second store as in the first. -/
theorem Grows.namesFollow (g : Grows names stored frame s t) :
    s.NamesFollow t frame frame (fun v w => w = v ∧ v.AtHome frame) (fun _ => True)
      fun e other => ∃ e', other = some e' ∧ e.Grown names stored e' := by
  intro name _
  have slot := g.slots name
  rw [g.home.meaning, g.home'.meaning]
  generalize found : s.slot? frame name = a at slot ⊢
  generalize t.slot? frame name = b at slot ⊢
  cases slot with
  | absent no => exact ⟨_, rfl, .inl (by rw [EvalError.later_undefined, if_neg no])⟩
  | later yes => exact ⟨_, rfl, .inl (by rw [EvalError.later_undefined, if_pos yes])⟩
  | reserved => exact ⟨_, rfl, .inl rfl⟩
  | @filled result result' grown =>
    cases result with
    | ok v =>
      cases grown
      exact Answer.follows_result ⟨rfl, g.home.values name v found⟩
    | error e =>
      obtain ⟨e', rfl, grown⟩ := grown
      exact ⟨e', rfl, grown⟩

/-- An expression comes in the second store to what may come of its result in the first. -/
theorem Grows.eval? (g : Grows names stored frame s t) {fuel : Nat} {e : Expr}
    {result : Except EvalError Value} (h : s.eval? fuel frame e = some result) :
    ∃ result', t.eval? fuel frame e = some result' ∧ Tyro.Grown names stored result result' := by
  have c := Value.correspondence_atHome frame
  have live : s.isLive frame = t.isLive frame := by rw [g.home.live, g.home'.live]
  cases result with
  | ok v =>
    obtain ⟨w, evaluated, rfl, -⟩ :=
      eval?_value_follows c tolerant_grown live g.namesFollow trivial h
    exact ⟨_, evaluated, rfl⟩
  | error err =>
    obtain ⟨other, ⟨err', rfl, grown⟩, failed⟩ :=
      eval?_error_follows c tolerant_grown live g.namesFollow trivial h
    exact ⟨_, failed err' rfl, err', rfl, grown⟩

/-! ## Filling -/

/-- A result can be put into both stores. -/
theorem Grows.setSlot (g : Grows names stored frame s t) (name : String)
    {result result' : Except EvalError Value} (grown : Tyro.Grown names stored result result')
    (value : ∀ v, result = .ok v → v.AtHome frame) :
    Grows names stored frame (s.setSlot frame name (.filled result))
      (t.setSlot frame name (.filled result')) := by
  refine ⟨g.home.setSlot name ?_, g.home'.setSlot name ?_, g.serial, fun other => ?_⟩
  · rintro v ⟨⟩
    exact value v rfl
  · rintro v ⟨⟩
    cases result with
    | ok w =>
      cases grown
      exact value v rfl
    | error e =>
      obtain ⟨e', absurd, -⟩ := grown
      cases absurd
  · rw [slot?_setSlot g.home.there, slot?_setSlot g.home'.there]
    by_cases same : name = other
    · rw [if_pos same, if_pos same]
      exact .filled grown
    · rw [if_neg same, if_neg same]
      exact g.slots other

/-- A name that has a slot is filled in both stores, or refused in both with the same error. -/
theorem Grows.fill (g : Grows names stored frame s t) {name : String}
    (has : (s.slot? frame name).isSome = true) {result result' : Except EvalError Value}
    (grown : Tyro.Grown names stored result result')
    (value : ∀ v, result = .ok v → v.AtHome frame) :
    (∃ s' t', s.fill frame name result = .ok s' ∧ t.fill frame name result' = .ok t' ∧
      Grows names stored frame s' t') ∨
    ∃ e, s.fill frame name result = .error e ∧ t.fill frame name result' = .error e := by
  have slot := g.slots name
  generalize found : s.slot? frame name = a at slot has
  generalize found' : t.slot? frame name = b at slot
  cases slot with
  | absent | later => cases has
  | reserved =>
    exact .inl ⟨_, _, fill_eq_ok_iff.2 ⟨found, rfl⟩, fill_eq_ok_iff.2 ⟨found', rfl⟩,
      g.setSlot name grown value⟩
  | filled =>
    refine .inr ⟨.alreadyDefined name, ?_, ?_⟩
    · exact (fill_eq_error_iff (by rw [found]; rfl)).2 ⟨⟨_, found⟩, rfl⟩
    · exact (fill_eq_error_iff (by rw [found']; rfl)).2 ⟨⟨_, found'⟩, rfl⟩

/-- Names that have slots are filled in both stores, with the same refusal if there is one. -/
theorem Grows.fillAll (g : Grows names stored frame s t) {entries : List (String × Value)}
    (has : ∀ name ∈ entries.map Prod.fst, (s.slot? frame name).isSome = true)
    (values : ∀ name v, (name, v) ∈ entries → v.AtHome frame) :
    (t.fillAll frame entries).1 = (s.fillAll frame entries).1 ∧
      Grows names stored frame (s.fillAll frame entries).2 (t.fillAll frame entries).2 := by
  induction entries generalizing s t with
  | nil => exact ⟨rfl, g⟩
  | cons entry entries ih =>
    obtain ⟨name, v⟩ := entry
    have later : ∀ other w, (other, w) ∈ entries → w.AtHome frame :=
      fun other w mem => values other w (List.mem_cons_of_mem _ mem)
    have value : ∀ w, (.ok v : Except EvalError Value) = .ok w → w.AtHome frame := by
      rintro w ⟨⟩
      exact values name v List.mem_cons_self
    unfold Store.fillAll
    have grown : Tyro.Grown names stored (.ok v) (.ok v) := rfl
    rcases g.fill (has name List.mem_cons_self) grown value with
      ⟨s', t', filled, filled', g'⟩ | ⟨e, refused, refused'⟩
    · rw [filled, filled']
      refine ih g' (fun other mem => ?_) later
      exact isSome_slot?_fill g.home.there filled (has other (List.mem_cons_of_mem _ mem))
    · rw [refused, refused']
      exact ⟨rfl, (ih g (fun other mem => has other (List.mem_cons_of_mem _ mem)) later).2⟩

/-- The same structure type is made in both stores. -/
theorem Grows.newStruct (g : Grows names stored frame s t) (struct : String)
    (fields : List String) :
    (t.newStruct struct fields).1 = (s.newStruct struct fields).1 ∧
      Grows names stored frame (s.newStruct struct fields).2 (t.newStruct struct fields).2 := by
  refine ⟨?_, g.home.newStruct struct fields, g.home'.newStruct struct fields, ?_, g.slots⟩
  · unfold Store.newStruct
    rw [g.serial]
  · exact congrArg (· + 1) g.serial

/-! ## Reserving -/

/-- The frame itself holds the error, from a definition whose expression had no value. -/
def HoldsError (s : Store) (frame : FrameId) (e : EvalError) : Prop :=
  ∃ name, s.slot? frame name = some (.filled (.error e))

/-- A frame that has just been made with the library holds no error. -/
theorem not_holdsError_newLibrary (s : Store) (e : EvalError) :
    ¬ s.newLibrary.2.HoldsError s.newLibrary.1 e := by
  rintro ⟨name, held⟩
  obtain ⟨v, absurd, -⟩ := slot?_newLibrary held
  cases absurd

/-- Reserving names leaves the errors that a frame holds. -/
theorem holdsError_reserveAll (there : frame < s.frames.length) (names : List String) :
    (s.reserveAll frame names).HoldsError frame = s.HoldsError frame := by
  funext e
  refine propext (exists_congr fun name => ?_)
  rw [slot?_reserveAll there]
  cases s.slot? frame name with
  | some slot => rfl
  | none =>
    refine iff_of_false ?_ nofun
    split <;> nofun

/-- Reserving names makes no structure type. -/
theorem nextSerial_reserveAll (s : Store) (frame : FrameId) (names : List String) :
    (s.reserveAll frame names).nextSerial = s.nextSerial := by
  induction names generalizing s with
  | nil => rfl
  | cons name names ih =>
    have first : (s.reserve frame name).nextSerial = s.nextSerial := by
      unfold reserve
      split <;> rfl
    exact (ih (s.reserve frame name)).trans first

/-- A store grows into the one with further names reserved. -/
theorem IsHome.grows_reserveAll (home : s.IsHome frame) (names : List String) :
    Grows names (s.HoldsError frame) frame s (s.reserveAll frame names) := by
  refine ⟨home, home.reserveAll names, nextSerial_reserveAll s frame names, fun name => ?_⟩
  rw [slot?_reserveAll home.there]
  cases found : s.slot? frame name with
  | none =>
    by_cases mem : name ∈ names
    · rw [if_pos mem]
      exact .later mem
    · rw [if_neg mem]
      exact .absent mem
  | some slot =>
    cases slot with
    | reserved => exact .reserved
    | filled result =>
      refine .filled ?_
      cases result with
      | ok v => rfl
      | error e => exact ⟨e, rfl, .inr ⟨rfl, name, found⟩⟩

end Store

/-! ## Reserving before and after filling -/

/-- An entry that a name has is changed in place, so that another name may get its entry before or
after that. -/
theorem Bindings.put_comm {α : Type} {name other : String} (ne : name ≠ other) (x y : α)
    {entries : List (String × α)} (has : name ∈ entries.map Prod.fst) :
    put other y (put name x entries) = put name x (put other y entries) := by
  induction entries with
  | nil => cases has
  | cons entry entries ih =>
    obtain ⟨first, z⟩ := entry
    by_cases here : first = name
    · subst here
      simp only [put, if_true, if_neg ne]
    · have later : name ∈ entries.map Prod.fst :=
        (List.mem_cons.1 has).resolve_left fun same => here same.symm
      by_cases there : first = other
      · subst there
        simp only [put, if_true, if_neg here]
      · simp only [put, if_neg here, if_neg there, ih later]

namespace Store

/-- A slot that a name has is changed in place, so that another name may get its slot before or
after that. -/
theorem setSlot_comm {s : Store} {frame : FrameId} {name other : String} (ne : name ≠ other)
    (a b : Slot) (has : (s.slot? frame name).isSome = true) :
    (s.setSlot frame name a).setSlot frame other b =
      (s.setSlot frame other b).setSlot frame name a := by
  unfold setSlot modify
  congr 1
  apply List.ext_getElem?
  intro id
  simp only [List.getElem?_modify]
  unfold slot? at has
  by_cases here : frame = id
  · subst here
    cases found : s.frames[frame]? with
    | none => rfl
    | some f =>
      rw [found] at has
      have swapped := Bindings.put_comm ne a b (Bindings.get?_isSome_iff.1 has)
      simp only [if_true, Option.map_eq_map, Option.map_some, Bindings.insert, swapped]
  · simp only [if_neg here]

variable {s : Store} {frame : FrameId}

/-- Reserving takes no slot away. -/
theorem isSome_slot?_reserve (there : frame < s.frames.length) (other : String) {name : String}
    (has : (s.slot? frame name).isSome = true) :
    ((s.reserve frame other).slot? frame name).isSome = true := by
  rw [slot?_reserve there, Option.isSome_or, has, Bool.true_or]

/-- A slot that a name has may be changed before or after another name is reserved. -/
theorem reserve_setSlot (there : frame < s.frames.length) {name : String} (slot : Slot)
    (has : (s.slot? frame name).isSome = true) (other : String) :
    (s.setSlot frame name slot).reserve frame other =
      (s.reserve frame other).setSlot frame name slot := by
  unfold reserve
  rw [slot?_setSlot there]
  by_cases same : name = other
  · subst same
    obtain ⟨old, found⟩ := Option.isSome_iff_exists.1 has
    rw [if_pos rfl, found]
  · rw [if_neg same]
    cases s.slot? frame other with
    | some old => rfl
    | none => exact setSlot_comm same slot .reserved has

/-- A slot that a name has may be changed before or after other names are reserved. -/
theorem reserveAll_setSlot (there : frame < s.frames.length) {name : String} (slot : Slot)
    (has : (s.slot? frame name).isSome = true) (names : List String) :
    (s.setSlot frame name slot).reserveAll frame names =
      (s.reserveAll frame names).setSlot frame name slot := by
  induction names generalizing s with
  | nil => rfl
  | cons other names ih =>
    change ((s.setSlot frame name slot).reserve frame other).reserveAll frame names =
      ((s.reserve frame other).reserveAll frame names).setSlot frame name slot
    rw [reserve_setSlot there slot has other]
    refine ih ?_ (isSome_slot?_reserve there other has)
    rwa [length_reserve]

/-- Reserving names leaves a slot that is there. -/
theorem slot?_reserveAll_of_isSome (there : frame < s.frames.length) {name : String}
    (has : (s.slot? frame name).isSome = true) (names : List String) :
    (s.reserveAll frame names).slot? frame name = s.slot? frame name := by
  obtain ⟨slot, found⟩ := Option.isSome_iff_exists.1 has
  rw [slot?_reserveAll there, found]
  rfl

/-- A name that has a slot may be filled before or after others are reserved. -/
theorem fill_reserveAll (there : frame < s.frames.length) {name : String}
    (has : (s.slot? frame name).isSome = true) (result : Except EvalError Value)
    (names : List String) :
    (s.reserveAll frame names).fill frame name result =
      (s.fill frame name result).map fun s' => s'.reserveAll frame names := by
  unfold fill
  rw [slot?_reserveAll_of_isSome there has]
  obtain ⟨slot, found⟩ := Option.isSome_iff_exists.1 has
  rw [found]
  cases slot with
  | reserved => exact congrArg Except.ok (reserveAll_setSlot there _ has names).symm
  | filled r => rfl

/-- Names that have slots may be filled before or after others are reserved. -/
theorem fillAll_reserveAll (there : frame < s.frames.length) {entries : List (String × Value)}
    (has : ∀ name ∈ entries.map Prod.fst, (s.slot? frame name).isSome = true)
    (names : List String) :
    (s.reserveAll frame names).fillAll frame entries =
      ((s.fillAll frame entries).1, (s.fillAll frame entries).2.reserveAll frame names) := by
  induction entries generalizing s with
  | nil => rfl
  | cons entry entries ih =>
    obtain ⟨name, v⟩ := entry
    unfold fillAll
    rw [fill_reserveAll there (has name List.mem_cons_self)]
    cases filled : s.fill frame name (.ok v) with
    | error e =>
      have rest := ih there fun other mem => has other (List.mem_cons_of_mem _ mem)
      exact congrArg (fun p : Option BindingError × Store => (some e, p.2)) rest
    | ok s' =>
      refine ih (by rwa [length_fill filled]) fun other mem => ?_
      exact isSome_slot?_fill there filled (has other (List.mem_cons_of_mem _ mem))

/-- A structure type may be made before or after names are reserved. -/
theorem newStruct_reserveAll (s : Store) (frame : FrameId) (names : List String) (struct : String)
    (fields : List String) :
    (s.reserveAll frame names).newStruct struct fields =
      ((s.newStruct struct fields).1,
        (s.newStruct struct fields).2.reserveAll frame names) := by
  have store : (s.newStruct struct fields).2.reserveAll frame names =
      { s.reserveAll frame names with nextSerial := s.nextSerial + 1 } := by
    induction names generalizing s with
    | nil => rfl
    | cons name names ih =>
      have first : (s.newStruct struct fields).2.reserve frame name =
          ((s.reserve frame name).newStruct struct fields).2 := by
        unfold reserve
        rw [slot?_newStruct]
        cases s.slot? frame name <;> rfl
      have serial : (s.reserve frame name).nextSerial = s.nextSerial :=
        nextSerial_reserveAll s frame [name]
      change ((s.newStruct struct fields).2.reserve frame name).reserveAll frame names = _
      rw [first, ih, serial]
      rfl
  rw [store]
  unfold newStruct
  rw [nextSerial_reserveAll]

end Store

end Tyro
