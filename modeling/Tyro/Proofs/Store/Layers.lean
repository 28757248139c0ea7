import Tyro.Proofs.Store.Settling

/-!
# Frames as layers

A frame is made alone or on top of another one. Names are bound in it whatever they were bound to,
reserved, or filled. `Store.Action` has these as steps, and `Store.performAll?` takes one after the
other, in frames that are there. After any number of them:

* a frame lies on the frames that it was put on when it was made, that one on what it was put on,
  and so on (`IsChain`, `Store.IsLayered`). A name is looked up in the innermost of these frames
  that has it (`lookup_eq_some_iff`), and the names that are listed are those that are found;
* a slot goes only where `Action.Moves` says, and no step takes one away (`Performs`);
* a step in one frame is not seen from frames that do not lie on it, nor through a frame that has
  the name itself (`lookup_perform`).

`Store.frames_are_layers` has all of it.
-/

namespace Tyro

namespace Store

/-! ## Steps -/

/-- What can be done with frames. -/
inductive Action where
  /-- Make an empty frame that lies on no other. -/
  | new
  /-- Make a frame on top of another, with values. -/
  | extend (frame : FrameId) (values : List (String × Value))
  /-- Bind a name to a value, whatever it was bound to. -/
  | define (frame : FrameId) (name : String) (v : Value)
  | reserve (frame : FrameId) (name : String)
  | fill (frame : FrameId) (name : String) (result : Except EvalError Value)

/-- The frame that the action needs. -/
def Action.frame? : Action → Option FrameId
  | .new => none
  | .extend frame _ => some frame
  | .define frame _ _ => some frame
  | .reserve frame _ => some frame
  | .fill frame _ _ => some frame

/-- The frame that the action makes: what it lies on, and the values in it. -/
def Action.made? : Action → Option (Option FrameId × List (String × Value))
  | .new => some (none, [])
  | .extend frame values => some (some frame, values)
  | _ => none

/-- The name that the action is about, and the frame. -/
def Action.target? : Action → Option (FrameId × String)
  | .define frame name _ => some (frame, name)
  | .reserve frame name => some (frame, name)
  | .fill frame name _ => some (frame, name)
  | _ => none

/-- The frame that the action needs is there. -/
def Action.IsIn (a : Action) (s : Store) : Prop := ∀ frame ∈ a.frame?, frame < s.frames.length

instance (a : Action) (s : Store) : Decidable (a.IsIn s) :=
  inferInstanceAs (Decidable (∀ frame ∈ a.frame?, frame < s.frames.length))

/-- The store after an action. One that is refused leaves the store as it is. -/
def perform (s : Store) : Action → Store
  | .new => s.newTop.2
  | .extend frame values => (s.extend frame values).2
  | .define frame name v => s.define frame name v
  | .reserve frame name => s.reserve frame name
  | .fill frame name result =>
    match s.fill frame name result with
    | .ok after => after
    | .error _ => s

/-- The store after an action, if the frame that it needs is there. -/
def perform? (s : Store) (a : Action) : Option Store :=
  if a.IsIn s then some (s.perform a) else none

/-- The store after several actions, one after the other. -/
def performAll? (s : Store) (actions : List Action) : Option Store := actions.foldlM perform? s

/-- An action is performed where the frame that it needs is there. -/
theorem perform?_eq_some_iff {s t : Store} {a : Action} :
    s.perform? a = some t ↔ a.IsIn s ∧ s.perform a = t := by
  unfold perform?
  split
  · next inside => simp [inside]
  · next outside => simp [outside]

/-- How an action changes the slot of a name in a frame: a slot that is absent is reserved, one that
is reserved is filled, and a definition fills it in any case. -/
inductive Action.Moves (frame : FrameId) (name : String) : Action → Option Slot → Slot → Prop
  | reserve : Moves frame name (.reserve frame name) none .reserved
  | fill (result : Except EvalError Value) :
    Moves frame name (.fill frame name result) (some .reserved) (.filled result)
  | define (v : Value) (slot : Option Slot) :
    Moves frame name (.define frame name v) slot (.filled (.ok v))

variable {s t : Store} {a : Action} {frame id : FrameId} {name : String} {slot : Slot}

/-- An action changes the slot that it is about. -/
theorem Action.Moves.target {before : Option Slot} (h : a.Moves frame name before slot) :
    a.target? = some (frame, name) := by
  cases h <;> rfl

/-- An action that changes a slot makes no frame. -/
theorem Action.Moves.made {before : Option Slot} (h : a.Moves frame name before slot) :
    a.made? = none := by
  cases h <;> rfl

/-- An action that changes a slot needs the frame. -/
theorem Action.Moves.needs {before : Option Slot} (h : a.Moves frame name before slot) :
    a.frame? = some frame := by
  cases h <;> rfl

/-- An action changes a slot in one way only. -/
theorem Action.Moves.unique {before : Option Slot} {other : Slot}
    (h : a.Moves frame name before slot) (h' : a.Moves frame name before other) :
    slot = other := by
  cases h <;> cases h' <;> rfl

/-- A frame that is made needs the one that it lies on. -/
theorem Action.needs_outer {outer : Option FrameId} {values : List (String × Value)}
    (made : a.made? = some (outer, values)) : a.frame? = outer := by
  cases a <;> cases made <;> rfl

/-- The slots that a new frame has for values. -/
def slotsOf (values : List (String × Value)) : Bindings Slot :=
  .ofList (values.map fun (name, v) => (name, .filled (.ok v)))

/-- What an action does: it makes a frame, it changes a slot, or it leaves all as it is. -/
inductive Performs (s : Store) (a : Action) : Store → Prop
  | makes {outer : Option FrameId} {values : List (String × Value)}
    (made : a.made? = some (outer, values)) :
    Performs s a (s.addFrame (outer.elim [] s.chain) (slotsOf values)).2
  | changes {frame : FrameId} {name : String} {slot : Slot}
    (moves : a.Moves frame name (s.slot? frame name) slot) :
    Performs s a (s.setSlot frame name slot)
  | leaves (makesNone : a.made? = none)
    (still : ∀ frame name slot, ¬ a.Moves frame name (s.slot? frame name) slot) : Performs s a s

/-- An action does one of the three. -/
theorem performs (s : Store) (a : Action) : s.Performs a (s.perform a) := by
  cases a with
  | new => exact .makes (show Action.made? .new = some (none, []) from rfl)
  | extend frame values =>
    exact .makes (show Action.made? (.extend frame values) = some (some frame, values) from rfl)
  | define frame name v => exact .changes (.define v _)
  | reserve frame name =>
    change s.Performs (.reserve frame name) (s.reserve frame name)
    unfold reserve
    cases found : s.slot? frame name with
    | none =>
      refine .changes ?_
      rw [found]
      exact .reserve
    | some slot =>
      refine .leaves rfl fun _ _ _ moves => ?_
      cases moves.target
      rw [found] at moves
      cases moves
  | fill frame name result =>
    change s.Performs (.fill frame name result)
      (match s.fill frame name result with | .ok after => after | .error _ => s)
    cases filled : s.fill frame name result with
    | ok after =>
      obtain ⟨reserved, rfl⟩ := fill_eq_ok_iff.1 filled
      refine .changes ?_
      rw [reserved]
      exact .fill result
    | error e =>
      refine .leaves rfl fun _ _ _ moves => ?_
      cases moves.target
      generalize found : s.slot? frame name = slot at moves
      cases moves with
      | fill =>
        rw [fill_eq_ok_iff.2 ⟨found, rfl⟩] at filled
        cases filled

/-! ## Frames on frames -/

/-- Adding a frame changes no chain. -/
theorem chain_addFrame (there : frame < s.frames.length) (outers : List FrameId)
    (bindings : Bindings Slot) : (s.addFrame outers bindings).2.chain frame = s.chain frame := by
  unfold chain addFrame
  dsimp only
  rw [List.getElem?_append_left there]

/-- Adding a frame changes no slot. -/
theorem slot?_addFrame (there : frame < s.frames.length) (outers : List FrameId)
    (bindings : Bindings Slot) (name : String) :
    (s.addFrame outers bindings).2.slot? frame name = s.slot? frame name := by
  unfold slot? addFrame
  dsimp only
  rw [List.getElem?_append_left there]

/-- The frame that is added lies on what it was made on. -/
theorem chain_addFrame_length (s : Store) (outers : List FrameId) (bindings : Bindings Slot) :
    (s.addFrame outers bindings).2.chain s.frames.length = s.frames.length :: outers := by
  unfold chain addFrame
  dsimp only
  rw [List.getElem?_concat_length]

/-- The frame that is added has the slots that it was made with. -/
theorem slot?_addFrame_length (s : Store) (outers : List FrameId) (bindings : Bindings Slot)
    (name : String) :
    (s.addFrame outers bindings).2.slot? s.frames.length name = bindings.get? name := by
  unfold slot? addFrame
  dsimp only
  rw [List.getElem?_concat_length]

/-- Each frame on a list, with the one that it was put on, lies on the frames of a chain: it comes
first, and the others are the chain of the one that it was put on. -/
inductive IsChain (outers : List (Option FrameId)) : FrameId → List FrameId → Prop
  | alone {frame : FrameId} (onNone : outers[frame]? = some none) : IsChain outers frame [frame]
  | on {frame outer : FrameId} {chain : List FrameId} (onOuter : outers[frame]? = some (some outer))
    (rest : IsChain outers outer chain) : IsChain outers frame (frame :: chain)

variable {outers : List (Option FrameId)} {chain : List FrameId}

/-- A chain stays one when there are more frames. -/
theorem IsChain.append (h : IsChain outers frame chain) (more : List (Option FrameId)) :
    IsChain (outers ++ more) frame chain := by
  have kept {id : FrameId} {outer : Option FrameId} (found : outers[id]? = some outer) :
      (outers ++ more)[id]? = some outer := by
    obtain ⟨inside, -⟩ := List.getElem?_eq_some_iff.1 found
    rw [List.getElem?_append_left inside, found]
  induction h with
  | alone onNone => exact .alone (kept onNone)
  | on onOuter _ ih => exact .on (kept onOuter) ih

/-- All frames of a chain are on the list. -/
theorem IsChain.lt_length (h : IsChain outers frame chain) (mem : id ∈ chain) :
    id < outers.length := by
  induction h with
  | alone onNone =>
    cases List.mem_singleton.1 mem
    exact (List.getElem?_eq_some_iff.1 onNone).1
  | on onOuter _ ih =>
    rcases List.mem_cons.1 mem with rfl | inside
    · exact (List.getElem?_eq_some_iff.1 onOuter).1
    · exact ih inside

/-- The frames of the store lie on each other as the list says. -/
structure IsLayered (s : Store) (outers : List (Option FrameId)) : Prop where
  length : s.frames.length = outers.length
  chain : ∀ frame < s.frames.length, IsChain outers frame (s.chain frame)

/-- The frames that are made in the course of several actions, by what each of them lies on. -/
def outersOf (actions : List Action) : List (Option FrameId) :=
  actions.filterMap fun a => a.made?.map Prod.fst

/-- The frames of one action come before those of the others. -/
theorem outersOf_cons (a : Action) (actions : List Action) :
    outersOf (a :: actions) = (a.made?.map Prod.fst).toList ++ outersOf actions := by
  unfold outersOf
  rw [List.filterMap_cons]
  cases a.made? <;> rfl

/-- An action that makes no frame leaves all layers as they are. -/
theorem IsLayered.of_places (layered : s.IsLayered outers) (same : t.places = s.places)
    (makesNone : a.made? = none) : t.IsLayered (outers ++ (a.made?.map Prod.fst).toList) := by
  have length := length_congr same
  rw [makesNone]
  refine ⟨?_, fun frame there => ?_⟩
  · rw [length, layered.length]
    exact congrArg _ (List.append_nil _).symm
  · rw [chain_congr same]
    exact (layered.chain frame (length ▸ there)).append []

/-- After an action there is one layer more if it makes a frame, and all others are as before. -/
theorem IsLayered.perform (layered : s.IsLayered outers) (inside : a.IsIn s) :
    (s.perform a).IsLayered (outers ++ (a.made?.map Prod.fst).toList) := by
  have performed := s.performs a
  generalize s.perform a = t at performed
  cases performed with
  | leaves makesNone still => exact layered.of_places rfl makesNone
  | changes moves => exact layered.of_places (places_setSlot ..) moves.made
  | @makes outer values made =>
    rw [made]
    have length : (s.addFrame (outer.elim [] s.chain) (slotsOf values)).2.frames.length =
        s.frames.length + 1 := List.length_append
    refine ⟨?_, fun frame there => ?_⟩
    · rw [length, layered.length, List.length_append]
      rfl
    rw [length] at there
    rcases Nat.lt_succ_iff_lt_or_eq.1 there with old | rfl
    · rw [chain_addFrame old]
      exact (layered.chain frame old).append _
    · have last : (outers ++ [outer])[s.frames.length]? = some outer := by
        rw [layered.length, List.getElem?_concat_length]
      rw [chain_addFrame_length]
      cases outer with
      | none => exact .alone last
      | some below =>
        have there := inside below (Option.mem_def.2 (Action.needs_outer made))
        exact .on last ((layered.chain below there).append _)

/-- After several actions the frames lie on each other as they were made. -/
theorem IsLayered.performAll (layered : s.IsLayered outers) {actions : List Action}
    (h : s.performAll? actions = some t) : t.IsLayered (outers ++ outersOf actions) := by
  induction actions generalizing s outers with
  | nil =>
    cases h
    exact ⟨layered.length.trans (congrArg _ (List.append_nil _).symm),
      fun frame there => (layered.chain frame there).append _⟩
  | cons a actions ih =>
    obtain ⟨middle, now, later⟩ := Option.bind_eq_some_iff.1 h
    obtain ⟨inside, rfl⟩ := perform?_eq_some_iff.1 now
    rw [outersOf_cons, ← List.append_assoc]
    exact ih (layered.perform inside) later

/-! ## Looking up -/

/-- From the frame the name is seen in another one: the other one is on the chain, and no frame
before it has the name. -/
def Sees (s : Store) (frame : FrameId) (name : String) (id : FrameId) : Prop :=
  ∃ before after, s.chain frame = before ++ id :: after ∧
    ∀ other ∈ before, s.slot? other name = none

/-- What is found for a name is in the innermost frame that has it. -/
theorem lookup_eq_some_iff :
    s.lookup frame name = some slot ↔ ∃ id, s.Sees frame name id ∧ s.slot? id name = some slot := by
  unfold lookup
  rw [List.findSome?_eq_some_iff]
  constructor
  · rintro ⟨before, id, after, split, found, hidden⟩
    exact ⟨id, ⟨before, after, split, hidden⟩, found⟩
  · rintro ⟨id, ⟨before, after, split, hidden⟩, found⟩
    exact ⟨before, id, after, split, found, hidden⟩

/-- Nothing is found for a name exactly if no frame has it. -/
theorem lookup_eq_none_iff :
    s.lookup frame name = none ↔ ∀ id ∈ s.chain frame, s.slot? id name = none :=
  List.findSome?_eq_none_iff

/-- A frame itself has the names that it has slots for. -/
theorem mem_ownNames : name ∈ s.ownNames frame ↔ s.slot? frame name ≠ none := by
  unfold ownNames slot?
  cases s.frames[frame]? with
  | none => simp
  | some f => exact Bindings.get?_isSome_iff.symm.trans Option.isSome_iff_ne_none

/-- The names that are listed are those that are found. -/
theorem mem_names : name ∈ s.names frame ↔ s.lookup frame name ≠ none := by
  unfold names
  rw [Text.mem_sortedNames, List.mem_flatMap, Ne, lookup_eq_none_iff]
  simp only [mem_ownNames, Classical.not_forall, exists_prop, ne_eq]

/-- A search is the same for two functions that differ in one place, if the place is not come to. -/
theorem findSome?_eq_of_hidden (id : FrameId) {f g : FrameId → Option Slot}
    (same : ∀ other ∈ chain, id ≠ other → g other = f other)
    (hidden : ∀ before after, chain = before ++ id :: after → ∃ other ∈ before, f other ≠ none) :
    chain.findSome? g = chain.findSome? f := by
  induction chain with
  | nil => rfl
  | cons first rest ih =>
    have ne : id ≠ first := by
      rintro rfl
      obtain ⟨other, absent, -⟩ := hidden [] rest rfl
      cases absent
    rw [List.findSome?_cons, List.findSome?_cons, same first List.mem_cons_self ne]
    cases found : f first with
    | some slot => rfl
    | none =>
      refine ih (fun other mem => same other (List.mem_cons_of_mem _ mem)) ?_
      intro before after split
      obtain ⟨other, mem, has⟩ := hidden (first :: before) after (congrArg (first :: ·) split)
      rcases List.mem_cons.1 mem with rfl | inside
      · exact absurd found has
      · exact ⟨other, inside, has⟩

/-- A slot that is put into a frame is seen from no frame that does not see the name there. -/
theorem lookup_setSlot (there : id < s.frames.length) (other : String) (slot : Slot)
    (hidden : other = name → ¬ s.Sees frame name id) :
    (s.setSlot id other slot).lookup frame name = s.lookup frame name := by
  unfold lookup
  rw [chain_congr (places_setSlot ..)]
  by_cases same : other = name
  · refine findSome?_eq_of_hidden id (fun away _ ne => slot?_setSlot_of_ne ne ..) ?_
    intro before after split
    by_contra unseen
    refine hidden same ⟨before, after, split, fun away mem => ?_⟩
    by_contra has
    exact unseen ⟨away, mem, has⟩
  · refine congrArg (fun f => (s.chain frame).findSome? f) (funext fun away => ?_)
    by_cases here : id = away
    · subst here
      rw [slot?_setSlot there, if_neg same]
    · exact slot?_setSlot_of_ne here ..

/-! ## Steps and what is looked up -/

/-- An action changes a slot as it moves it, and leaves it if it does not. -/
theorem slot?_perform (there : frame < s.frames.length) (name : String) :
    (∀ slot, a.Moves frame name (s.slot? frame name) slot →
      (s.perform a).slot? frame name = some slot) ∧
    ((∀ slot, ¬ a.Moves frame name (s.slot? frame name) slot) →
      (s.perform a).slot? frame name = s.slot? frame name) := by
  have performed := s.performs a
  generalize s.perform a = t at performed
  cases performed with
  | leaves makesNone still => exact ⟨fun slot moves => absurd moves (still _ _ _), fun _ => rfl⟩
  | makes made =>
    refine ⟨fun slot moves => ?_, fun _ => slot?_addFrame there ..⟩
    rw [moves.made] at made
    cases made
  | @changes id other slot moved =>
    refine ⟨fun slot' moves => ?_, fun still => ?_⟩
    · cases moved.target.symm.trans moves.target
      rw [slot?_setSlot there, if_pos rfl, moved.unique moves]
    · by_cases here : id = frame
      · subst here
        rw [slot?_setSlot there, if_neg]
        rintro rfl
        exact still slot moved
      · exact slot?_setSlot_of_ne here ..

/-- No name is taken out of a frame. -/
theorem slot?_perform_ne_none (has : s.slot? frame name ≠ none) (a : Action) :
    (s.perform a).slot? frame name ≠ none := by
  obtain ⟨before, found⟩ := Option.ne_none_iff_exists'.1 has
  obtain ⟨moves, stays⟩ := slot?_perform (a := a) (there_of_slot? found) name
  by_cases moved : ∃ slot, a.Moves frame name (s.slot? frame name) slot
  · obtain ⟨slot, moved⟩ := moved
    rw [moves slot moved]
    nofun
  · rwa [stays (not_exists.1 moved)]

/-- A filled slot stays as it is, unless the name is defined anew. -/
theorem slot?_perform_filled {result : Except EvalError Value}
    (filled : s.slot? frame name = some (.filled result)) (a : Action)
    (other : ∀ v, a ≠ .define frame name v) :
    (s.perform a).slot? frame name = some (.filled result) := by
  rw [← filled]
  refine (slot?_perform (there_of_slot? filled) name).2 fun slot moves => ?_
  rw [filled] at moves
  cases moves with
  | define v => exact other v rfl

/-- What no action of several changes holds after all of them. -/
theorem performAll_induction {P : Store → Prop} {actions : List Action}
    (step : ∀ a ∈ actions, ∀ s, P s → P (s.perform a)) (start : P s)
    (h : s.performAll? actions = some t) : P t := by
  induction actions generalizing s with
  | nil =>
    cases h
    exact start
  | cons a actions ih =>
    obtain ⟨middle, now, later⟩ := Option.bind_eq_some_iff.1 h
    obtain ⟨-, rfl⟩ := perform?_eq_some_iff.1 now
    obtain ⟨first, others⟩ := List.forall_mem_cons.1 step
    exact ih others (first s start) later

/-- What is looked up changes only for the name that an action is about, and only where this name is
seen in the frame that the action is about. -/
theorem lookup_perform (layered : s.IsLayered outers) (inside : a.IsIn s)
    (there : frame < s.frames.length) (name : String)
    (changed : (s.perform a).lookup frame name ≠ s.lookup frame name) :
    ∃ id, a.target? = some (id, name) ∧ s.Sees frame name id := by
  have performed := s.performs a
  generalize s.perform a = t at performed changed
  cases performed with
  | leaves => exact absurd rfl changed
  | makes =>
    have below (id : FrameId) (mem : id ∈ s.chain frame) : id < s.frames.length := by
      rw [layered.length]
      exact (layered.chain frame there).lt_length mem
    have new : s.frames.length ∉ s.chain frame := fun mem => Nat.lt_irrefl _ (below _ mem)
    refine absurd ?_ changed
    unfold lookup
    rw [chain_addFrame there]
    refine findSome?_eq_of_hidden s.frames.length
      (fun id mem _ => slot?_addFrame (below id mem) ..) ?_
    intro before after split
    rw [split] at new
    exact absurd List.mem_append_cons_self new
  | @changes id other slot moves =>
    by_contra unseen
    have thereId : id < s.frames.length := inside id (Option.mem_def.2 moves.needs)
    refine changed (lookup_setSlot thereId other slot ?_)
    rintro rfl sees
    exact unseen ⟨id, moves.target, sees⟩

/-- A new frame has a slot for each name of its values, with the last value for the name. -/
theorem get?_slotsOf (values : List (String × Value)) (name : String) :
    (slotsOf values).get? name =
      (Bindings.find name values.reverse).map fun v => .filled (.ok v) := by
  rw [← Bindings.get?_ofList]
  exact Bindings.get?_ofList_map (fun v => Slot.filled (.ok v)) values name

/-- The frame that an action makes has the values that come with it. -/
theorem slot?_perform_length {outer : Option FrameId} {values : List (String × Value)}
    (made : a.made? = some (outer, values)) (name : String) :
    (s.perform a).slot? s.frames.length name =
      (Bindings.find name values.reverse).map fun v => .filled (.ok v) := by
  have performed := s.performs a
  generalize s.perform a = t at performed
  cases performed with
  | makes made' =>
    cases made.symm.trans made'
    rw [slot?_addFrame_length, get?_slotsOf]
  | changes moves =>
    rw [moves.made] at made
    cases made
  | leaves makesNone =>
    rw [makesNone] at made
    cases made

/-- **Frames are layers**, after any number of steps from the empty store.

A frame lies on the frames that it was made on. A name is looked up in the innermost one that has
it, and the names that are listed are those that are found, in order and each once. A further step
moves slots as `Action.Moves` says and leaves all others; it changes what is looked up for its own
name alone, and from frames that see this name in its own frame. A new frame has the values that it
is made with. Whatever is done later, no name is taken out of a frame, and what is filled stays
unless it is defined anew. Filling is refused for a name that is filled or that the frame does not
have, and then it changes nothing. -/
theorem frames_are_layers {actions : List Action} (h : empty.performAll? actions = some s) :
    s.frames.length = (outersOf actions).length ∧
    (∀ frame < s.frames.length,
      IsChain (outersOf actions) frame (s.chain frame) ∧
      (∀ name slot, s.lookup frame name = some slot ↔
        ∃ id, s.Sees frame name id ∧ s.slot? id name = some slot) ∧
      (∀ name, s.lookup frame name = none ↔ ∀ id ∈ s.chain frame, s.slot? id name = none) ∧
      (s.names frame).Pairwise (· < ·) ∧
      ∀ name, name ∈ s.names frame ↔ s.lookup frame name ≠ none) ∧
    (∀ a t, s.perform? a = some t →
      (∀ frame < s.frames.length, ∀ name,
        (∀ slot, a.Moves frame name (s.slot? frame name) slot → t.slot? frame name = some slot) ∧
        ((∀ slot, ¬ a.Moves frame name (s.slot? frame name) slot) →
          t.slot? frame name = s.slot? frame name) ∧
        (t.lookup frame name ≠ s.lookup frame name →
          ∃ id, a.target? = some (id, name) ∧ s.Sees frame name id)) ∧
      ∀ outer values, a.made? = some (outer, values) → ∀ name,
        t.slot? s.frames.length name =
          (Bindings.find name values.reverse).map fun v => .filled (.ok v)) ∧
    (∀ more t, s.performAll? more = some t → ∀ frame name,
      (s.slot? frame name ≠ none → t.slot? frame name ≠ none) ∧
      ∀ result, s.slot? frame name = some (.filled result) →
        (∀ v, .define frame name v ∉ more) → t.slot? frame name = some (.filled result)) ∧
    ∀ frame < s.frames.length, ∀ name result e,
      (s.fill frame name result = .error e ↔
        s.IsFilled frame name ∧ e = .alreadyDefined name ∨
          s.slot? frame name = none ∧ e = .notReserved name) ∧
      (s.fill frame name result = .error e → s.perform? (.fill frame name result) = some s) := by
  have start : empty.IsLayered [] := ⟨rfl, fun frame there => absurd there (Nat.not_lt_zero _)⟩
  have layered : s.IsLayered (outersOf actions) := start.performAll h
  refine ⟨layered.length, ?_, ?_, ?_, ?_⟩
  · intro frame there
    exact ⟨layered.chain frame there, fun _ _ => lookup_eq_some_iff, fun _ => lookup_eq_none_iff,
      Text.pairwise_sortedNames _, fun _ => mem_names⟩
  · intro a t performed
    obtain ⟨inside, rfl⟩ := perform?_eq_some_iff.1 performed
    refine ⟨fun frame there name => ?_, fun _ _ made name => slot?_perform_length made name⟩
    obtain ⟨moves, stays⟩ := slot?_perform there name
    exact ⟨moves, stays, lookup_perform layered inside there name⟩
  · intro more t performed frame name
    refine ⟨fun has => ?_, fun result filled other => ?_⟩
    · exact performAll_induction (P := fun s => s.slot? frame name ≠ none)
        (fun a _ _ has => slot?_perform_ne_none has a) has performed
    · exact performAll_induction (P := fun s => s.slot? frame name = some (.filled result))
        (fun a mem _ filled => slot?_perform_filled filled a fun v same => other v (same ▸ mem))
        filled performed
  · intro frame there name result e
    refine ⟨fill_refused_iff, fun refused => perform?_eq_some_iff.2 ⟨?_, ?_⟩⟩
    · rintro _ ⟨⟩
      exact there
    · rw [perform, refused]

/-- A name that is reserved in an inner frame hides the one that the outer frame has a value for,
which stays there. The inner frame lists its own names and those below, and the outer frame refuses
to have its name filled. -/
theorem reserved_name_hides_outer_name :
    ∃ s, empty.performAll? [.new, .define 0 "x" (.boolean true),
        .extend 0 [("y", .boolean false)], .reserve 1 "x"] = some s ∧
      s.lookup 1 "x" = some .reserved ∧ s.lookup 0 "x" = some (.filled (.ok (.boolean true))) ∧
      "x" ∈ s.names 1 ∧ "y" ∈ s.names 1 ∧ "y" ∉ s.names 0 ∧
      s.fill 0 "x" (.ok (.string "a")) = .error (.alreadyDefined "x") ∧
      s.perform? (.fill 0 "x" (.ok (.string "a"))) = some s := by
  refine ⟨_, rfl, ?_⟩
  obtain ⟨-, layers, -, -, fills⟩ := frames_are_layers
    (show empty.performAll? [.new, .define 0 "x" (.boolean true),
      .extend 0 [("y", .boolean false)], .reserve 1 "x"] = some _ from rfl)
  obtain ⟨-, found, -, -, listed⟩ := layers 1 (by decide)
  obtain ⟨-, foundBelow, -, -, listedBelow⟩ := layers 0 (by decide)
  obtain ⟨refused, kept⟩ := fills 0 (by decide) "x" (.ok (.string "a")) (.alreadyDefined "x")
  have inner := (found "x" .reserved).2 ⟨1, ⟨[], [0], rfl, nofun⟩, rfl⟩
  have outer := (foundBelow "x" (.filled (.ok (.boolean true)))).2 ⟨0, ⟨[], [], rfl, nofun⟩, rfl⟩
  have argument := (found "y" (.filled (.ok (.boolean false)))).2 ⟨1, ⟨[], [0], rfl, nofun⟩, rfl⟩
  have taken := refused.2 (.inl ⟨⟨_, rfl⟩, rfl⟩)
  refine ⟨inner, outer, (listed "x").2 ?_, (listed "y").2 ?_, ?_, taken, kept taken⟩
  · rw [inner]
    nofun
  · rw [argument]
    nofun
  · exact fun mem => (listedBelow "y").1 mem rfl

end Store

end Tyro
