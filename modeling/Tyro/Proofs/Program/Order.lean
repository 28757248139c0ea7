import Tyro.Proofs.Program.Bare
import Tyro.Proofs.Program.Definitions

/-!
# The order of definitions

Two programs of the same definitions in different orders, both of which succeed, define the same.
The values of the two runs are compared by `Value.Matches`: contents are the same, functions belong
to the frame of their run, and structure types belong together if each is the type of the
constructor of one name at the end of its run (`StructType.Matches`).

The proof follows the first run, definition by definition, and compares with the end of the second
(`within_of_runForms`): the end of the second run satisfies all definitions as equations, and what
the body of a constant comes to in the first run is matched by what it comes to there. Neither
order is better than the other, so the same holds the other way round, and each name has matching
values or none (`Succeed.both`). Then every expression, and so every test, comes to the same
(`Succeed.eval?_agrees`, `Succeed.check_agrees`).
-/

namespace Tyro

/-! ## Values that match -/

/-- Two types that are those of the constructors of one name in two frames. -/
structure StructType.Matches (a : StructType) (s : Store) (frame : FrameId) (t : Store)
    (frame' : FrameId) (b : StructType) : Prop where
  name : b.name = a.name
  fields : b.fields = a.fields
  here : s.slot? frame (constructorName a.name) = some (.filled (.ok (.constructor a)))
  there : t.slot? frame' (constructorName b.name) = some (.filled (.ok (.constructor b)))

/-- Types that belong together are the same without their numbers. -/
theorem StructType.Matches.bare {s t : Store} {frame frame' : FrameId} {a b : StructType}
    (h : a.Matches s frame t frame' b) : b.bare = a.bare := by
  obtain ⟨serial, name, fields⟩ := a
  obtain ⟨serial', name', fields'⟩ := b
  obtain ⟨sameName, sameFields, -, -⟩ := h
  cases sameName
  cases sameFields
  rfl

/-- Two values with the same contents, up to the two frames and to types that belong together. -/
inductive Value.Matches (s : Store) (frame : FrameId) (t : Store) (frame' : FrameId) :
    Value → Value → Prop
  | string (content : String) : Matches s frame t frame' (.string content) (.string content)
  | number (value : Float) : Matches s frame t frame' (.number value) (.number value)
  | boolean (value : Bool) : Matches s frame t frame' (.boolean value) (.boolean value)
  | builtin (f : Builtin) : Matches s frame t frame' (.builtin f) (.builtin f)
  | closure (name : String) (params : List String) (body : Expr) :
    Matches s frame t frame' (.closure ⟨name, params, body, frame⟩)
      (.closure ⟨name, params, body, frame'⟩)
  | struct {a b : StructType} {vs ws : List Value} (types : a.Matches s frame t frame' b)
    (fields : List.Forall₂ (Matches s frame t frame') vs ws) :
    Matches s frame t frame' (.struct a vs) (.struct b ws)
  | constructor {a b : StructType} (types : a.Matches s frame t frame' b) :
    Matches s frame t frame' (.constructor a) (.constructor b)
  | accessor {a b : StructType} (types : a.Matches s frame t frame' b) (index : Nat) :
    Matches s frame t frame' (.accessor a index) (.accessor b index)
  | predicate {a b : StructType} (types : a.Matches s frame t frame' b) :
    Matches s frame t frame' (.predicate a) (.predicate b)

section Matching

variable {s t : Store} {frame frame' : FrameId}

namespace Value

/-- Evaluation keeps the relation of matching values. -/
theorem correspondence_matches (s : Store) (frame : FrameId) (t : Store) (frame' : FrameId) :
    Correspondence frame frame' (Matches s frame t frame')
      (fun a b => a.Matches s frame t frame' b) fun _ => True where
  shape := by
    intro v w h
    cases h with
    | string content => exact .string content
    | number x => exact .number x
    | boolean b => exact .boolean b
    | builtin f => exact .builtin f
    | closure name params body => exact .closure name params trivial
    | struct types fields => exact .struct types fields
    | constructor types => exact .constructor types
    | accessor types index => exact .accessor types index
    | predicate types => exact .predicate types
  alike types := ⟨types.name, types.fields⟩
  same := by
    intro a b a' b' types types'
    -- Both are the types of the constructors of one name, in the one frame and in the other.
    constructor
    · rintro rfl
      have same := types'.there
      rw [types'.name, ← types.name, types.there] at same
      cases same
      rfl
    · rintro rfl
      have same := types'.here
      rw [← types'.name, types.name, types.here] at same
      cases same
      rfl
  parts _ _ _ := trivial
  number := .number
  boolean := .boolean
  literal _ := .string _
  join _ := .string _
  struct := by
    intro a b vs ws constructors fields _
    cases constructors with
    | constructor types => exact .struct types fields

mutual

/-- Values that match are the same without their numbers. -/
theorem Matches.bare {v w : Value} : v.Matches s frame t frame' w → w.bare = v.bare
  | .string _ => rfl
  | .number _ => rfl
  | .boolean _ => rfl
  | .builtin _ => rfl
  | .closure _ _ _ => rfl
  | .struct types fields => by
    rw [Value.bare, Value.bare, types.bare, bareAll_of_matches fields]
  | .constructor types => by rw [Value.bare, Value.bare, types.bare]
  | .accessor types index => by rw [Value.bare, Value.bare, types.bare]
  | .predicate types => by rw [Value.bare, Value.bare, types.bare]

/-- Lists of values that match are the same without their numbers. -/
theorem bareAll_of_matches {vs ws : List Value} :
    List.Forall₂ (Matches s frame t frame') vs ws → bareAll ws = bareAll vs
  | .nil => rfl
  | .cons first rest => by rw [bareAll, bareAll, first.bare, bareAll_of_matches rest]

end

end Value

/-- Errors that report values that match are the same without their numbers. -/
theorem EvalError.Corresponds.bare {e e' : EvalError}
    (h : e.Corresponds (Value.Matches s frame t frame') e') : e'.bare = e.bare := by
  obtain ⟨context, fault⟩ := e
  obtain ⟨context', fault'⟩ := e'
  obtain ⟨same, faults⟩ := h
  cases same
  unfold EvalError.bare
  cases faults with
  | notBoolean given | wrongKind _ _ given | wrongStruct _ given =>
    simp only [EvalFault.bare, given.bare]
  | _ => rfl

/-! ## Functions and the library -/

variable {a b : StructType}

/-- The accessors of types that belong together match. -/
theorem StructType.matches_accessorsFrom (types : a.Matches s frame t frame' b) (index : Nat)
    (fields : List String) :
    List.Forall₂ (EntriesRelated (Value.Matches s frame t frame')) (a.accessorsFrom index fields)
      (b.accessorsFrom index fields) := by
  induction fields generalizing index with
  | nil => exact .nil
  | cons field fields ih =>
    refine .cons ⟨?_, .accessor types index⟩ (ih (index + 1))
    exact congrArg (accessorName · field) types.name

/-- The functions of types that belong together match. -/
theorem StructType.matches_functions (types : a.Matches s frame t frame' b) :
    List.Forall₂ (EntriesRelated (Value.Matches s frame t frame')) a.functions b.functions := by
  have first : constructorName b.name = constructorName a.name :=
    congrArg constructorName types.name
  have last : predicateName b.name = predicateName a.name := congrArg predicateName types.name
  unfold StructType.functions
  rw [types.fields]
  exact List.rel_append
    (.cons ⟨first, .constructor types⟩ (matches_accessorsFrom types 0 a.fields))
    (.cons ⟨last, .predicate types⟩ .nil)

/-- Two libraries match if their structures for points belong together. -/
theorem Store.matches_library (types : a.Matches s frame t frame' b) :
    List.Forall₂ (EntriesRelated (Value.Matches s frame t frame')) (library a) (library b) := by
  unfold library
  refine List.rel_append (List.rel_append ?_ ?_) (StructType.matches_functions types)
  · refine List.forall₂_same.2 fun entry mem => ?_
    obtain ⟨f, -, rfl⟩ := List.mem_map.1 mem
    exact ⟨rfl, .builtin f⟩
  · exact .cons ⟨rfl, .number _⟩ (.cons ⟨rfl, .number _⟩ .nil)

end Matching

namespace Store

variable {s s' t last : Store} {frame frame' : FrameId} {fuel : Nat}

/-! ## Following the first run -/

/-- A definition that succeeds in the first run keeps its values within a store that satisfies the
definition. -/
theorem within_of_runDefinition (home : s.IsHome frame) {d : Definition} {r : FormResult}
    (h : s.runDefinition fuel frame d = some (r, s')) (bound : r.IsBinding)
    (keeps : s'.Keeps last frame) (home' : t.IsHome frame') (satisfied : t.Satisfies frame' d)
    (within : Within (Value.Matches last frame t frame') s frame t frame') :
    Within (Value.Matches last frame t frame') s' frame t frame' := by
  intro name v filled
  rcases result_of_runDefinition home.there h filled with before | ⟨entries, has, mem⟩
  · exact within name v before
  cases d with
  | constant first body =>
    obtain ⟨result, evaluated, built⟩ := Option.bind_eq_some_iff.1 has
    cases built
    cases List.mem_singleton.1 mem
    -- The body comes to a matching value in the other store, which is the value of the constant.
    obtain ⟨w, evaluated', related⟩ :=
      within.eval? (Value.correspondence_matches last frame t frame') home home' evaluated
    obtain ⟨w', slot, fuel', again⟩ := satisfied
    cases eval?_unique evaluated' again
    exact ⟨w, slot, related⟩
  | function first params body =>
    cases has
    cases List.mem_singleton.1 mem
    exact ⟨_, satisfied, .closure _ params body⟩
  | struct struct fields =>
    cases has
    obtain ⟨⟨other, w⟩, inside, same⟩ := List.mem_map.1 mem
    cases same
    obtain ⟨serial, slots⟩ := satisfied
    have types : StructType.Matches ⟨s.nextSerial, struct, fields⟩ last frame t frame'
        ⟨serial, struct, fields⟩ :=
      ⟨rfl, rfl, keeps _ _ (slot?_of_struct home.there h bound _ List.mem_cons_self),
        slots _ List.mem_cons_self⟩
    obtain ⟨entry, inside', same, related⟩ :=
      exists_of_mem_left (StructType.matches_functions types) inside
    refine ⟨entry.2, ?_, related⟩
    rw [← same]
    exact slots entry inside'

/-- Definitions that all succeed in the first run keep its values within a store that satisfies
them. -/
theorem within_of_runForms (home : s.IsHome frame) {ds : List Definition}
    {pendings : List Pending}
    (h : s.runForms fuel frame (ds.map .definition) = some (pendings, last))
    (bound : AllBound pendings) (home' : t.IsHome frame')
    (satisfied : ∀ d ∈ ds, t.Satisfies frame' d)
    (within : Within (Value.Matches last frame t frame') s frame t frame') :
    Within (Value.Matches last frame t frame') last frame t frame' := by
  induction ds generalizing s pendings with
  | nil =>
    cases h
    exact within
  | cons d ds ih =>
    obtain ⟨first, middle, rest, now, later, rfl⟩ := runForms_cons h
    obtain ⟨⟨r, same, first⟩, others⟩ := List.forall_mem_cons.1 bound
    obtain ⟨⟨r', after⟩, defined, built⟩ := Option.bind_eq_some_iff.1 now
    cases built
    cases same
    obtain ⟨here, later'⟩ := List.forall_mem_cons.1 satisfied
    have middleHome := home.runDefinition defined
    refine ih middleHome later others later' ?_
    exact within_of_runDefinition home defined first (keeps_of_runForms middleHome.there later)
      home' here within

/-! ## Both runs -/

/-- What the library binds. -/
theorem slot?_newLibrary_eq (s : Store) (name : String) :
    s.newLibrary.2.slot? s.newLibrary.1 name =
      ((Bindings.ofList (library (s.newStruct "posn" ["x", "y"]).1)).get? name).map
        fun v => .filled (.ok v) := by
  unfold slot?
  rw [getElem?_newLibrary]
  exact Bindings.get?_ofList_map (fun v => Slot.filled (.ok v)) _ name

/-- The library has the constructor of points under its name. -/
theorem slot?_constructor_newLibrary (s : Store) :
    s.newLibrary.2.slot? s.newLibrary.1 (constructorName "posn") =
      some (.filled (.ok (.constructor (s.newStruct "posn" ["x", "y"]).1))) := by
  rw [slot?_newLibrary_eq]
  rfl

/-- The library is within what another run leaves of another library. -/
theorem within_newLibrary (keeps : s.newLibrary.2.Keeps last s.newLibrary.1)
    (keeps' : s'.newLibrary.2.Keeps t s'.newLibrary.1) :
    Within (Value.Matches last s.newLibrary.1 t s'.newLibrary.1) s.newLibrary.2 s.newLibrary.1 t
      s'.newLibrary.1 := by
  intro name v filled
  have types : (s.newStruct "posn" ["x", "y"]).1.Matches last s.newLibrary.1 t s'.newLibrary.1
      (s'.newStruct "posn" ["x", "y"]).1 :=
    ⟨rfl, rfl, keeps _ _ s.slot?_constructor_newLibrary, keeps' _ _ s'.slot?_constructor_newLibrary⟩
  have related := Bindings.related_ofList (matches_library types) name
  have other := s'.slot?_newLibrary_eq name
  rw [slot?_newLibrary_eq] at filled
  generalize (Bindings.ofList (library (s.newStruct "posn" ["x", "y"]).1)).get? name = a
    at related filled
  generalize (Bindings.ofList (library (s'.newStruct "posn" ["x", "y"]).1)).get? name = b
    at related other
  cases related with
  | none => cases filled
  | some related =>
    cases filled
    exact ⟨_, keeps' _ _ other, related⟩

/-- Definitions run to their end in a fresh library, and all of them bind their names. -/
def Succeed (s : Store) (ds : List Definition) (last : Store) : Prop :=
  ∃ results, s.newLibrary.2.Runs s.newLibrary.1 (ds.map .definition) results last ∧
    ∀ r ∈ results, r.IsBinding

/-- What definitions leave that succeed: a home frame that keeps the library and satisfies them. -/
theorem Succeed.satisfies {ds : List Definition} (h : s.Succeed ds last) :
    last.IsHome s.newLibrary.1 ∧ s.newLibrary.2.Keeps last s.newLibrary.1 ∧
      ∀ d ∈ ds, last.Satisfies s.newLibrary.1 d := by
  obtain ⟨results, ⟨fuel, ran⟩, bound⟩ := h
  obtain ⟨pendings, passed, allBound⟩ := allBound_of_run ran bound
  have home := s.isHome_newLibrary
  have reserved := home.reserveAll ((ds.map .definition).flatMap Form.boundNames)
  have keeps := keeps_of_runForms reserved.there passed
  exact ⟨home.run ran, (keeps_reserveAll home.there _).trans keeps,
    satisfies_of_runForms reserved passed allBound⟩

/-- A program of definitions that succeed leaves what they leave. -/
theorem Succeed.eq_of_run {forms : List Form} {results : List FormResult}
    (h : s.Succeed (forms.filterMap Form.definition?) last)
    (ran : s.newLibrary.2.run fuel s.newLibrary.1 forms = some (results, t)) : t = last := by
  obtain ⟨alone, ranAlone, -⟩ := h
  obtain ⟨results', ran'⟩ := run_definitions ran
  exact (Runs.unique ⟨fuel, ran'⟩ ranAlone).2

/-- If two lists of definitions both succeed, and the first has no others than the second, then the
values of the first run are within those of the second. -/
theorem Succeed.within {ds ds' : List Definition} (h : s.Succeed ds last) (h' : s'.Succeed ds' t)
    (sub : ∀ d ∈ ds, d ∈ ds') :
    Within (Value.Matches last s.newLibrary.1 t s'.newLibrary.1) last s.newLibrary.1 t
      s'.newLibrary.1 := by
  obtain ⟨-, keeps, -⟩ := h.satisfies
  obtain ⟨home', keeps', satisfied⟩ := h'.satisfies
  obtain ⟨results, ⟨fuel, ran⟩, bound⟩ := h
  obtain ⟨pendings, passed, allBound⟩ := allBound_of_run ran bound
  have home := s.isHome_newLibrary
  have reserved := home.reserveAll ((ds.map .definition).flatMap Form.boundNames)
  refine within_of_runForms reserved passed allBound home' (fun d mem => satisfied d (sub d mem)) ?_
  -- Reserving adds no values to those of the library.
  intro name v filled
  exact within_newLibrary keeps keeps' name v (slot?_of_reserveAll home.there filled)

/-- A name has a value after definitions that succeed, or it has no slot. -/
theorem Succeed.slot {ds : List Definition} (h : s.Succeed ds last) (name : String) :
    (∃ v, last.slot? s.newLibrary.1 name = some (.filled (.ok v))) ∨
      last.slot? s.newLibrary.1 name = none := by
  obtain ⟨-, -, satisfied⟩ := h.satisfies
  by_cases mem : name ∈ ds.flatMap Definition.boundNames
  · obtain ⟨d, inside, named⟩ := List.mem_flatMap.1 mem
    exact .inl ((satisfied d inside).slot named)
  · obtain ⟨results, ⟨fuel, ran⟩, bound⟩ := h
    obtain ⟨pendings, passed, -⟩ := run_eq_some_iff.1 ran
    have home := s.isHome_newLibrary
    obtain ⟨-, entries, -, names, slots⟩ := runForms_spec (home.reserveAll _).there passed
    rw [flatMap_boundNames_map] at names
    have nothing : Bindings.find name entries = none :=
      Bindings.find_eq_none_iff.2 (by rwa [names])
    rw [slots, nothing, Slot.receive_none, slot?_reserveAll home.there, flatMap_boundNames_map,
      if_neg mem, Option.or_none, slot?_newLibrary_eq]
    cases (Bindings.ofList (library (s.newStruct "posn" ["x", "y"]).1)).get? name with
    | none => exact .inr rfl
    | some v => exact .inl ⟨v, rfl⟩

/-- A name has the same value in two frames, up to numbers, or no slot in either. -/
def SlotsAgree (s : Store) (frame : FrameId) (t : Store) (frame' : FrameId) (name : String) :
    Prop :=
  (∃ v w, s.slot? frame name = some (.filled (.ok v)) ∧
    t.slot? frame' name = some (.filled (.ok w)) ∧ w.bare = v.bare) ∨
  s.slot? frame name = none ∧ t.slot? frame' name = none

section Both

variable {ds ds' : List Definition} (h : s.Succeed ds last) (h' : s'.Succeed ds' t)
  (same : ∀ d, d ∈ ds ↔ d ∈ ds')
include h h' same

/-- Each name is without a slot after both runs, or has values that match. -/
theorem Succeed.both (name : String) :
    (∃ v w, last.slot? s.newLibrary.1 name = some (.filled (.ok v)) ∧
      t.slot? s'.newLibrary.1 name = some (.filled (.ok w)) ∧
        v.Matches last s.newLibrary.1 t s'.newLibrary.1 w) ∨
    last.slot? s.newLibrary.1 name = none ∧ t.slot? s'.newLibrary.1 name = none := by
  rcases h.slot name with ⟨v, filled⟩ | absent
  · obtain ⟨w, filled', related⟩ := h.within h' (fun d => (same d).1) name v filled
    exact .inl ⟨v, w, filled, filled', related⟩
  · refine .inr ⟨absent, (h'.slot name).resolve_left ?_⟩
    rintro ⟨w, filled'⟩
    obtain ⟨v, filled, -⟩ := h'.within h (fun d => (same d).2) name w filled'
    rw [absent] at filled
    cases filled

/-- What an expression comes to after the one run, it comes to after the other, up to numbers. -/
theorem Succeed.eval?_agrees {e : Expr} {r : Except EvalError Value}
    (evaluated : last.eval? fuel s.newLibrary.1 e = some r) :
    ∃ r', t.eval? fuel s'.newLibrary.1 e = some r' ∧ bareOutcome r' = bareOutcome r := by
  have home := h.satisfies.1
  have home' := h'.satisfies.1
  have c := Value.correspondence_matches last s.newLibrary.1 t s'.newLibrary.1
  have live : last.isLive s.newLibrary.1 = t.isLive s'.newLibrary.1 := by
    rw [home.live, home'.live]
  have tolerant : Tolerant (Value.Matches last s.newLibrary.1 t s'.newLibrary.1)
      fun e other => ∃ e', other = some e' ∧ e'.bare = e.bare := by
    refine ⟨fun e e' corresponds => ⟨e', rfl, corresponds.bare⟩, fun e missing => ?_⟩
    obtain ⟨e', absurd, -⟩ := missing
    cases absurd
  have names : last.NamesFollow t s.newLibrary.1 s'.newLibrary.1
      (Value.Matches last s.newLibrary.1 t s'.newLibrary.1) (fun _ => True)
      fun e other => ∃ e', other = some e' ∧ e'.bare = e.bare := by
    intro name _
    rw [home.meaning, home'.meaning]
    rcases h.both h' same name with ⟨v, w, filled, filled', related⟩ | ⟨absent, absent'⟩
    · rw [filled, filled']
      exact Answer.follows_result related
    · rw [absent, absent']
      exact ⟨_, rfl, rfl⟩
  cases r with
  | ok v =>
    obtain ⟨w, evaluated', related⟩ :=
      eval?_value_follows c tolerant live names trivial evaluated
    exact ⟨_, evaluated', congrArg Except.ok related.bare⟩
  | error err =>
    obtain ⟨other, ⟨err', rfl, bare⟩, failed⟩ :=
      eval?_error_follows c tolerant live names trivial evaluated
    exact ⟨_, failed err' rfl, congrArg Except.error bare⟩

/-- What a test comes to after the one run, it comes to after the other, up to numbers. -/
theorem Succeed.check_agrees {c : Check} {fuel' : Nat} {r r' : CheckResult}
    (ran : c.run (fun e => last.eval? fuel s.newLibrary.1 e) = some r)
    (ran' : c.run (fun e => t.eval? fuel' s'.newLibrary.1 e) = some r') : r'.bare = r.bare := by
  have more : ∀ e x, last.eval? fuel s.newLibrary.1 e = some x →
      last.eval? (max fuel fuel') s.newLibrary.1 e = some x :=
    fun e x => last.eval?_mono (Nat.le_max_left fuel fuel') _ e x
  have more' : ∀ e x, t.eval? fuel' s'.newLibrary.1 e = some x →
      t.eval? (max fuel fuel') s'.newLibrary.1 e = some x :=
    fun e x => t.eval?_mono (Nat.le_max_right fuel fuel') _ e x
  have bare := Check.run_bare (Check.run_mono more c ran)
  have bare' := Check.run_bare (Check.run_mono more' c ran')
  have agree : ∀ e x, (last.eval? (max fuel fuel') s.newLibrary.1 e).map bareOutcome = some x →
      (t.eval? (max fuel fuel') s'.newLibrary.1 e).map bareOutcome = some x := by
    intro e x mapped
    obtain ⟨y, evaluated, rfl⟩ := Option.map_eq_some_iff.1 mapped
    obtain ⟨y', evaluated', bare⟩ := h.eval?_agrees h' same evaluated
    rw [evaluated', Option.map_some, bare]
  exact Option.some.inj (bare'.symm.trans (Check.run_mono agree c bare))

end Both

/-- **The order of definitions does not matter once they all succeed.** If the same definitions
succeed in two orders, each in a fresh library, then every name has the same value after both runs,
and every test in a program of these definitions, wherever it stands, comes to the same: values have
the same contents, and structure types the same name and fields. -/
theorem definitions_in_any_order {ds ds' : List Definition} (perm : ds.Perm ds')
    (succeed : s.Succeed ds last) (succeed' : s'.Succeed ds' t) :
    (∀ name, SlotsAgree last s.newLibrary.1 t s'.newLibrary.1 name) ∧
    ∀ forms forms' results results' after after',
      forms.filterMap Form.definition? = ds → forms'.filterMap Form.definition? = ds' →
      s.newLibrary.2.Runs s.newLibrary.1 forms results after →
      s'.newLibrary.2.Runs s'.newLibrary.1 forms' results' after' →
      ∀ (i j : Nat) (c : Check), forms[i]? = some (.check c) → forms'[j]? = some (.check c) →
        ∃ r r', results[i]? = some (.check r) ∧ results'[j]? = some (.check r') ∧
          r'.bare = r.bare := by
  have same : ∀ d, d ∈ ds ↔ d ∈ ds' := fun d => perm.mem_iff
  constructor
  · intro name
    refine (succeed.both succeed' same name).imp_left ?_
    rintro ⟨v, w, filled, filled', related⟩
    exact ⟨v, w, filled, filled', related.bare⟩
  · rintro forms forms' results results' after after' rfl rfl ⟨fuel, ran⟩ ⟨fuel', ran'⟩ i j c place
      place'
    -- Both programs leave what their definitions leave.
    have left := succeed.eq_of_run ran
    have left' := succeed'.eq_of_run ran'
    subst left
    subst left'
    obtain ⟨r, result, checked⟩ := check_of_run ran place
    obtain ⟨r', result', checked'⟩ := check_of_run ran' place'
    exact ⟨r, r', result, result', succeed.check_agrees succeed' same checked checked'⟩

/-- A constant, a structure and a function that makes structures of it. -/
def boxDefinitions : List Definition :=
  [.constant "greeting" (.string "hello"), .struct "box" ["content"],
    .function "wrap" ["x"] (.call "make-box" [.name "x"])]

/-- What is wrapped into a structure is its content. -/
def boxTest : Check :=
  .expect (.call "box-content" [.call "wrap" [.name "greeting"]]) (.string "hello")

/-- Three definitions succeed in their order and in the opposite one, and a test has the same result
in front of the one program and at the end of the other. -/
theorem definitions_in_any_order_of_three :
    ∃ last last' results results' after after', boxDefinitions.Perm boxDefinitions.reverse ∧
      empty.Succeed boxDefinitions last ∧ empty.Succeed boxDefinitions.reverse last' ∧
      empty.newLibrary.2.Runs 0 (.check boxTest :: boxDefinitions.map .definition) results after ∧
      empty.newLibrary.2.Runs 0 (boxDefinitions.reverse.map .definition ++ [.check boxTest])
        results' after' ∧
      SlotsAgree last 0 last' 0 "make-box" ∧
      ∃ r r', results[0]? = some (.check r) ∧ results'[3]? = some (.check r') ∧
        r'.bare = r.bare := by
  have bound : ∀ r ∈ [FormResult.bound "greeting" (.string "hello"), .structBound "box",
      .bound "wrap" (.closure ⟨"wrap", ["x"], .call "make-box" [.name "x"], 0⟩)],
      r.IsBinding := by simp [FormResult.IsBinding]
  have perm : boxDefinitions.Perm boxDefinitions.reverse := (List.reverse_perm _).symm
  have succeed : empty.Succeed boxDefinitions _ := ⟨_, ⟨5, rfl⟩, bound⟩
  have succeed' : empty.Succeed boxDefinitions.reverse _ :=
    ⟨_, ⟨5, rfl⟩, fun r mem => bound r (List.mem_reverse.1 mem)⟩
  have ran : empty.newLibrary.2.Runs empty.newLibrary.1
      (.check boxTest :: boxDefinitions.map .definition) _ _ := ⟨5, rfl⟩
  have ran' : empty.newLibrary.2.Runs empty.newLibrary.1
      (boxDefinitions.reverse.map .definition ++ [.check boxTest]) _ _ := ⟨5, rfl⟩
  obtain ⟨agree, tests⟩ := definitions_in_any_order perm succeed succeed'
  have tested := tests _ _ _ _ _ _ rfl rfl ran ran' 0 3 boxTest rfl rfl
  exact ⟨_, _, _, _, _, _, perm, succeed, succeed', ran, ran', agree "make-box", tested⟩

end Store

end Tyro
