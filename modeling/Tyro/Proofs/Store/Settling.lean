import Tyro.Proofs.Eval.Follows
import Tyro.Proofs.Program.Moments

/-!
# Slots that settle

In the course of a run a reserved slot is filled, and nothing else happens to the store:
`Store.Settles` relates the store of one moment to that of a later one, whatever frames there are
besides the top level. All steps of the second pass let the store settle
(`settles_runForms`), so that any two moments of a run are related (`settles_storeBefore`).

An evaluation does not notice it: it has the same value at the later moment, and the same error
unless it has looked up a name that was still reserved (`Store.Settles.evalAtFuel`).
-/

namespace Tyro

open Answer

/-! ## Slots and stores -/

/-- What a slot may be later in a run: what it was, or filled if it was reserved. -/
inductive Slot.Settles : Option Slot → Option Slot → Prop
  | stays (slot : Option Slot) : Settles slot slot
  | filled (result : Except EvalError Value) : Settles (some .reserved) (some (.filled result))

namespace Slot.Settles

variable {a b c : Option Slot}

/-- A slot settles in several steps. -/
theorem trans (first : Slot.Settles a b) (second : Slot.Settles b c) : Slot.Settles a c := by
  cases first with
  | stays => exact second
  | filled result =>
    cases second with
    | stays => exact .filled result

/-- What is looked up in a chain of frames settles as the slots of the frames do. -/
theorem findSome? {f g : FrameId → Option Slot} (settles : ∀ id, Slot.Settles (f id) (g id))
    (chain : List FrameId) : Slot.Settles (chain.findSome? f) (chain.findSome? g) := by
  induction chain with
  | nil => exact .stays none
  | cons id chain ih =>
    rw [List.findSome?_cons, List.findSome?_cons]
    have here := settles id
    generalize f id = a at here ⊢
    generalize g id = b at here ⊢
    cases here with
    | stays =>
      cases a with
      | none => exact ih
      | some slot => exact .stays _
    | filled result => exact .filled result

end Slot.Settles

/-- All of a frame but what it binds: the frames that it lies on, and whether it is held. -/
def Frame.place (f : Frame) : List FrameId × Bool := (f.outers, f.held)

namespace Store

variable {s t : Store} {frame : FrameId} {fuel : Nat}

/-- The place of each frame in the store. -/
def places (s : Store) : List (List FrameId × Bool) := s.frames.map Frame.place

/-- How many frames there are can be told from their places. -/
theorem length_congr (same : t.places = s.places) : t.frames.length = s.frames.length := by
  have length := congrArg List.length same
  rwa [places, places, List.length_map, List.length_map] at length

/-- Chains depend on the places of frames alone. -/
theorem chain_congr (same : t.places = s.places) (id : FrameId) : t.chain id = s.chain id := by
  have here : (t.frames[id]?).map Frame.place = (s.frames[id]?).map Frame.place := by
    rw [← List.getElem?_map, ← List.getElem?_map]
    exact congrArg (·[id]?) same
  unfold chain
  cases known : s.frames[id]? with
  | none =>
    rw [known] at here
    rw [Option.map_eq_none_iff.1 here]
  | some f =>
    rw [known] at here
    obtain ⟨g, found, place⟩ := Option.map_eq_some_iff.1 here
    rw [found]
    exact congrArg (id :: ·) (congrArg Prod.fst place)

/-- Which frames are live depends on the places of frames alone. -/
theorem isLive_congr (same : t.places = s.places) (id : FrameId) : t.isLive id = s.isLive id := by
  have byPlaces (r : Store) : r.isLive id = r.places.zipIdx.any fun (place, other) =>
      place.2 && (id == other || place.1.contains id) := by
    unfold isLive places
    rw [List.zipIdx_map, List.any_map]
    rfl
  rw [byPlaces t, byPlaces s, same]

/-- The later store has the same frames in the same places, and slots only settle. -/
structure Settles (s t : Store) : Prop where
  places : t.places = s.places
  slots : ∀ id name, Slot.Settles (s.slot? id name) (t.slot? id name)

namespace Settles

/-- A store that stays as it is settles. -/
theorem refl (s : Store) : s.Settles s := ⟨rfl, fun _ _ => .stays _⟩

/-- A store settles in several steps. -/
theorem trans {middle last : Store} (first : s.Settles middle) (second : middle.Settles last) :
    s.Settles last :=
  ⟨second.places.trans first.places,
    fun id name => (first.slots id name).trans (second.slots id name)⟩

/-- What a name is bound to in a chain of frames settles. -/
theorem lookup (h : s.Settles t) (id : FrameId) (name : String) :
    Slot.Settles (s.lookup id name) (t.lookup id name) := by
  unfold Store.lookup
  rw [chain_congr h.places]
  exact .findSome? (fun other => h.slots other name) _

/-- What a slot is filled with it keeps. -/
theorem slot?_filled (h : s.Settles t) {id : FrameId} {name : String}
    {result : Except EvalError Value} (filled : s.slot? id name = some (.filled result)) :
    t.slot? id name = some (.filled result) := by
  have here := h.slots id name
  rw [filled] at here
  generalize t.slot? id name = b at here
  cases here with
  | stays => rfl

/-- A frame that is a home in the end has been one before. -/
theorem isHome (h : s.Settles t) (home : t.IsHome frame) : s.IsHome frame where
  there := length_congr h.places ▸ home.there
  alone := (chain_congr h.places frame).symm.trans home.alone
  live := (isLive_congr h.places frame).symm.trans home.live
  values name v filled := home.values name v (h.slot?_filled filled)

end Settles

/-! ## The steps of a run -/

/-- Changing what a frame binds leaves all frames in their places. -/
@[simp] theorem places_setSlot (s : Store) (frame : FrameId) (name : String) (slot : Slot) :
    (s.setSlot frame name slot).places = s.places := by
  unfold places setSlot modify
  apply List.ext_getElem?
  intro id
  rw [List.getElem?_map, List.getElem?_map, List.getElem?_modify]
  cases s.frames[id]? with
  | none => rfl
  | some f => by_cases same : frame = id <;> simp [same, Frame.place]

/-- A slot that is put into a frame is in no other frame. -/
theorem slot?_setSlot_of_ne {id : FrameId} (other : frame ≠ id) (s : Store) (name name' : String)
    (slot : Slot) : (s.setSlot frame name slot).slot? id name' = s.slot? id name' := by
  unfold slot? setSlot modify
  dsimp only
  rw [List.getElem?_modify_ne _ _ other]

/-- A frame that has a slot is there. -/
theorem there_of_slot? {name : String} {slot : Slot} (found : s.slot? frame name = some slot) :
    frame < s.frames.length := by
  unfold slot? at found
  by_contra absent
  rw [List.getElem?_eq_none (Nat.le_of_not_lt absent)] at found
  cases found

/-- A name that the frame itself has a value for stands for it at the top level. -/
theorem lookup_top_of_slot? {name : String} {v : Value}
    (filled : s.slot? frame name = some (.filled (.ok v))) :
    (Scope.top frame).lookup s name = .ok v := by
  have here := List.getElem?_eq_getElem (there_of_slot? filled)
  have found : s.lookup frame name = some (.filled (.ok v)) := by
    unfold Store.lookup chain
    rw [here]
    dsimp only
    rw [List.findSome?_cons, filled]
  unfold Scope.lookup Scope.top
  dsimp only
  rw [Bindings.get?_empty, found]

/-- Filling a reserved slot lets the store settle. -/
theorem settles_setSlot {name : String} (reserved : s.slot? frame name = some .reserved)
    (result : Except EvalError Value) : s.Settles (s.setSlot frame name (.filled result)) := by
  refine ⟨places_setSlot s frame name _, fun id name' => ?_⟩
  by_cases here : frame = id
  · subst here
    rw [slot?_setSlot (there_of_slot? reserved)]
    by_cases same : name = name'
    · rw [if_pos same, ← same, reserved]
      exact .filled result
    · rw [if_neg same]
      exact .stays _
  · rw [slot?_setSlot_of_ne here]
    exact .stays _

/-- Filling several names lets the store settle. -/
theorem settles_fillAll (s : Store) (frame : FrameId) (entries : List (String × Value)) :
    s.Settles (s.fillAll frame entries).2 := by
  induction entries generalizing s with
  | nil => exact .refl s
  | cons entry entries ih =>
    obtain ⟨name, v⟩ := entry
    unfold fillAll
    cases filled : s.fill frame name (.ok v) with
    | error e => exact ih s
    | ok s' =>
      obtain ⟨reserved, rfl⟩ := fill_eq_ok_iff.1 filled
      exact (settles_setSlot reserved _).trans (ih _)

/-- Binding a name lets the store settle. -/
theorem Binds.settles {name : String} {result : Except EvalError Value} {r : FormResult}
    (h : s.Binds frame name result r t) : s.Settles t := by
  cases h with
  | refused => exact .refl s
  | bound reserved | failed reserved => exact settles_setSlot reserved _

/-- A definition lets the store settle. -/
theorem settles_runDefinition {d : Definition} {r : FormResult}
    (h : s.runDefinition fuel frame d = some (r, t)) : s.Settles t := by
  cases d with
  | constant name body =>
    obtain ⟨result, -, binds⟩ := runDefinition_constant h
    exact binds.settles
  | function name params body => exact (runDefinition_function h).settles
  | struct name fields =>
    have made : s.Settles (s.newStruct name fields).2 := ⟨rfl, fun _ _ => .stays _⟩
    rw [runDefinition_struct] at h
    cases h
    exact made.trans (settles_fillAll _ frame _)

/-- A form lets the store settle. -/
theorem settles_runForm {form : Form} {pending : Pending}
    (h : s.runForm fuel frame form = some (pending, t)) : s.Settles t := by
  cases form with
  | definition d =>
    obtain ⟨⟨r, after⟩, defined, built⟩ := Option.bind_eq_some_iff.1 h
    cases built
    exact settles_runDefinition defined
  | expression e =>
    obtain ⟨result, -, built⟩ := Option.bind_eq_some_iff.1 h
    cases result <;> cases built <;> exact .refl s
  | check c =>
    cases h
    exact .refl s
  | malformed e =>
    cases h
    exact .refl s

/-- The second pass lets the store settle. -/
theorem settles_runForms {forms : List Form} {pendings : List Pending}
    (h : s.runForms fuel frame forms = some (pendings, t)) : s.Settles t := by
  induction forms generalizing s pendings with
  | nil =>
    cases h
    exact .refl _
  | cons form forms ih =>
    obtain ⟨first, middle, rest, now, later, -⟩ := runForms_cons h
    exact (settles_runForm now).trans (ih later)

/-- The store of one moment of a run settles to that of any later one. -/
theorem settles_storeBefore {forms : List Form} {i j : Nat} (le : i ≤ j) {before after : Store}
    (h : s.storeBefore? fuel frame forms i = some before)
    (h' : s.storeBefore? fuel frame forms j = some after) : before.Settles after := by
  obtain ⟨pendings, between⟩ := runForms_between le h h'
  exact settles_runForms between

/-- The store that a form leaves settles to that of any later moment of the run. -/
theorem settles_after {forms : List Form} {i j : Nat} {form : Form}
    (place : forms[i]? = some form) {before after : Store} {pending : Pending}
    (h : s.storeBefore? fuel frame forms i = some before)
    (now : before.runForm fuel frame form = some (pending, after)) (later : i < j)
    (h' : s.storeBefore? fuel frame forms j = some t) : after.Settles t := by
  obtain ⟨pending', after', pendings, now', ran⟩ := runForms_after later place h h'
  rw [now] at now'
  cases now'
  exact settles_runForms ran

/-! ## Evaluation -/

/-- What may become of an error as slots settle: it stays, or is overtaken because it was about a
name that was reserved. -/
def Overtakes (s : Store) (e : EvalError) (other : Option EvalError) : Prop :=
  other = some e ∨
    ∃ id name, s.lookup id name = some .reserved ∧ e = .about name .definedLater

/-- All but an error about a reserved name stays as slots settle. -/
theorem tolerant_overtakes (s : Store) : Tolerant Eq s.Overtakes where
  corresponding e e' corresponds := by
    rw [corresponds.eq fun _ _ same => same.symm]
    exact .inl rfl
  any e gone other := by
    rcases gone with absent | reserved
    · cases absent
    · exact .inr reserved

namespace Settles

/-- What a name stands for in a scope stays, unless it is reserved. -/
theorem follows_lookup (h : s.Settles t) (scope : Scope) (name : String) :
    Follows Eq s.Overtakes (.ofExcept (scope.lookup s name)) (.ofExcept (scope.lookup t name)) := by
  have stays : ∀ e, s.Overtakes e (some e) := fun e => .inl rfl
  unfold Scope.lookup
  cases scope.locals.get? name with
  | some v => exact follows_self stays
  | none =>
    have here := h.lookup scope.frame name
    generalize known : s.lookup scope.frame name = a at here
    generalize t.lookup scope.frame name = b at here
    cases here with
    | stays => exact follows_self stays
    | filled result => exact .inr ⟨scope.frame, name, known, rfl⟩

/-- **As slots settle, an evaluation keeps its value, and its error unless that was about a reserved
name.** -/
theorem evalAtFuel (h : s.Settles t) (fuel : Nat) (scope : Scope) (e : Expr) :
    Follows Eq s.Overtakes (s.evalAtFuel fuel scope e) (t.evalAtFuel fuel scope e) := by
  have tolerant := s.tolerant_overtakes
  have stays : ∀ e, s.Overtakes e (some e) := fun e => .inl rfl
  induction fuel generalizing scope e with
  | zero => trivial
  | succ fuel ih =>
    have part (es : List Expr) : List.Forall₂ (fun e e' =>
        Follows Eq s.Overtakes (s.evalAtFuel fuel scope e) (t.evalAtFuel fuel scope e')) es es :=
      List.forall₂_same.2 fun e _ => ih scope e
    cases e with
    | string | number | boolean | template => exact follows_self stays
    | name word => exact h.follows_lookup scope word
    | call function args =>
      refine (h.follows_lookup scope function).bind tolerant fun f g same => ?_
      refine (Eval.all_follows tolerant (part args)).bind tolerant fun vs ws all => ?_
      rw [List.forall₂_eq_eq_eq] at all
      rw [← same, ← all]
      have live := fun id => (isLive_congr h.places id).symm
      exact Eval.apply_follows_self tolerant stays live ih (tolerant.blames _) f vs
    | ifElse q yes no =>
      refine (Eval.question_follows tolerant keepsTruth_eq (tolerant.blames _) (ih scope q)).bind
        tolerant fun b b' same => ?_
      cases same
      cases b with
      | true => exact ih scope yes
      | false => exact ih scope no
    | cond cs =>
      exact Eval.clauses_follows tolerant keepsTruth_eq (tolerant.blames _)
        (.self fun e _ => ih scope e)
    | logical connective es =>
      exact Eval.operands_follows tolerant keepsTruth_eq (tolerant.blames _) connective (part es)

/-- A value is kept as slots settle. -/
theorem evalAtFuel_result (h : s.Settles t) {scope : Scope} {e : Expr} {v : Value}
    (evaluated : s.evalAtFuel fuel scope e = .result v) :
    t.evalAtFuel fuel scope e = .result v := by
  have follows := h.evalAtFuel fuel scope e
  rw [evaluated] at follows
  obtain ⟨w, same, rfl⟩ := follows
  exact same

end Settles

end Store

end Tyro
