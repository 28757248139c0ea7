import Tyro.Proofs.Eval.LooksUp

/-!
# The stages of a run

A run goes from store to store: every name that is filled makes a new one, also each of the several
names of a structure definition. `moments?` lists all of them from the end of the first pass on, in
order, through as many forms as one likes; the store before each form is among them
(`mem_moments_of_storeBefore`). Each store of the list settles to all later ones
(`pairwise_settles_moments`), so that whatever an expression comes to at one moment it comes to at
every later one, unless it failed by a name that was reserved (`evaluation_is_monotone`).
-/

namespace Tyro

open Answer

namespace Store

variable {s t last : Store} {frame : FrameId} {fuel : Nat}

/-! ## The stores of a run -/

/-- The stores that filling several names goes through, one for each name that is filled. -/
def fillStages (s : Store) (frame : FrameId) : List (String × Value) → List Store
  | [] => []
  | (name, v) :: rest =>
    match s.fill frame name (.ok v) with
    | .ok s => s :: s.fillStages frame rest
    | .error _ => s.fillStages frame rest

/-- The stores that a form goes through. All but the definition of a structure fill one name at
most. -/
def formStages? (s : Store) (fuel : Nat) (frame : FrameId) : Form → Option (List Store)
  | .definition (.struct name fields) =>
    let (type, s) := s.newStruct name fields
    some (s :: s.fillStages frame type.functions)
  | form => do
    let (_, s) ← s.runForm fuel frame form
    return [s]

/-- The stores that the second pass goes through. -/
def stages? (s : Store) (fuel : Nat) (frame : FrameId) : List Form → Option (List Store)
  | [] => some []
  | form :: forms => do
    let inside ← s.formStages? fuel frame form
    let (_, s) ← s.runForm fuel frame form
    return inside ++ (← s.stages? fuel frame forms)

/-- The stores of a run from the end of the first pass through its first `n` forms. -/
def moments? (s : Store) (fuel : Nat) (frame : FrameId) (forms : List Form) (n : Nat) :
    Option (List Store) := do
  let start := s.reserveAll frame (forms.flatMap Form.boundNames)
  return start :: (← start.stages? fuel frame (forms.take n))

/-! ## Stores that settle one to the next -/

/-- The stores lead from a first one to a last one, and each settles to the next. -/
inductive Advances : Store → List Store → Store → Prop
  | nil (s : Store) : Advances s [] s
  | cons {s next last : Store} {stores : List Store} (step : s.Settles next)
    (rest : Advances next stores last) : Advances s (next :: stores) last

namespace Advances

variable {stores others : List Store}

/-- A single step is a way. -/
theorem single (step : s.Settles t) : Advances s [t] t := .cons step (.nil t)

/-- One way goes on where another one has got to. -/
theorem append (first : Advances s stores t) (second : Advances t others last) :
    Advances s (stores ++ others) last := by
  induction first with
  | nil => exact second
  | cons step _ ih => exact .cons step (ih second)

/-- The first store settles to every other one on the way. -/
theorem settles_of_mem (advances : Advances s stores last) : ∀ t ∈ stores, s.Settles t := by
  induction advances with
  | nil => exact List.forall_mem_nil _
  | cons step _ ih =>
    exact List.forall_mem_cons.2 ⟨step, fun t mem => step.trans (ih t mem)⟩

/-- Every store on the way settles to all later ones. -/
theorem pairwise (advances : Advances s stores last) : (s :: stores).Pairwise Settles := by
  induction advances with
  | nil s => exact List.pairwise_singleton _ s
  | cons step rest ih => exact List.pairwise_cons.2 ⟨(cons step rest).settles_of_mem, ih⟩

/-- Every store on the way settles to the last one. -/
theorem settles_last (advances : Advances s stores last) : ∀ t ∈ s :: stores, t.Settles last := by
  induction advances with
  | nil s => exact List.forall_mem_singleton.2 (.refl s)
  | cons step _ ih =>
    exact List.forall_mem_cons.2 ⟨step.trans (ih _ List.mem_cons_self), ih⟩

/-- The last store is on the way. -/
theorem mem_last (advances : Advances s stores last) : last ∈ s :: stores := by
  induction advances with
  | nil s => exact List.mem_cons_self
  | cons _ _ ih => exact List.mem_cons_of_mem _ ih

end Advances

/-- Filling several names goes from store to store. -/
theorem advances_fillStages (s : Store) (frame : FrameId) (entries : List (String × Value)) :
    Advances s (s.fillStages frame entries) (s.fillAll frame entries).2 := by
  induction entries generalizing s with
  | nil => exact .nil s
  | cons entry entries ih =>
    obtain ⟨name, v⟩ := entry
    unfold fillStages fillAll
    cases filled : s.fill frame name (.ok v) with
    | error e => exact ih s
    | ok s' =>
      obtain ⟨reserved, rfl⟩ := fill_eq_ok_iff.1 filled
      exact .cons (settles_setSlot reserved _) (ih _)

/-- A form goes from store to store. -/
theorem exists_formStages {form : Form} {pending : Pending}
    (h : s.runForm fuel frame form = some (pending, t)) :
    ∃ stores, s.formStages? fuel frame form = some stores ∧ Advances s stores t := by
  have settles := settles_runForm h
  cases form with
  | expression | check | malformed =>
    simp only [formStages?, h]
    exact ⟨[t], rfl, .single settles⟩
  | definition d =>
    cases d with
    | constant | function =>
      simp only [formStages?, h]
      exact ⟨[t], rfl, .single settles⟩
    | struct name fields =>
      have made : s.Settles (s.newStruct name fields).2 := ⟨rfl, fun _ _ => .stays _⟩
      rw [runForm, runDefinition_struct] at h
      cases h
      exact ⟨_, rfl, .cons made (advances_fillStages _ frame _)⟩

/-- The second pass goes from store to store. -/
theorem exists_stages {forms : List Form} {pendings : List Pending}
    (h : s.runForms fuel frame forms = some (pendings, last)) :
    ∃ stores, s.stages? fuel frame forms = some stores ∧ Advances s stores last := by
  induction forms generalizing s pendings with
  | nil =>
    cases h
    exact ⟨[], rfl, .nil _⟩
  | cons form forms ih =>
    obtain ⟨first, middle, rest, now, later, -⟩ := runForms_cons h
    obtain ⟨inside, found, advances⟩ := exists_formStages now
    obtain ⟨stores, found', advances'⟩ := ih later
    refine ⟨inside ++ stores, ?_, advances.append advances'⟩
    rw [stages?, found, now]
    simp only [Option.bind_eq_bind, Option.bind_some, found', Option.pure_def]

/-- The stages of two lists of forms are those of the first, and on from there those of the second.
-/
theorem stages_append {forms others : List Form} {pendings : List Pending} {middle : Store}
    (ran : s.runForms fuel frame forms = some (pendings, middle)) {stores : List Store}
    (h : s.stages? fuel frame (forms ++ others) = some stores) :
    ∃ first rest, s.stages? fuel frame forms = some first ∧
      middle.stages? fuel frame others = some rest ∧ stores = first ++ rest := by
  induction forms generalizing s pendings stores with
  | nil =>
    cases ran
    exact ⟨[], stores, rfl, h, rfl⟩
  | cons form forms ih =>
    obtain ⟨pending, next, more, now, later, -⟩ := runForms_cons ran
    obtain ⟨inside, found, h⟩ := Option.bind_eq_some_iff.1 h
    obtain ⟨_, now', h⟩ := Option.bind_eq_some_iff.1 h
    rw [now] at now'
    cases now'
    obtain ⟨further, found', built⟩ := Option.bind_eq_some_iff.1 h
    cases built
    obtain ⟨first, rest, before, after, rfl⟩ := ih later found'
    refine ⟨inside ++ first, rest, ?_, after, (List.append_assoc ..).symm⟩
    simp only [stages?, found, now, before, Option.bind_eq_bind, Option.bind_some, Option.pure_def]

/-- The second pass has its stages only where it gets to its end. -/
theorem exists_runForms_of_stages {forms : List Form} {stores : List Store}
    (h : s.stages? fuel frame forms = some stores) :
    ∃ pendings last, s.runForms fuel frame forms = some (pendings, last) := by
  induction forms generalizing s stores with
  | nil => exact ⟨[], s, rfl⟩
  | cons form forms ih =>
    obtain ⟨inside, -, h⟩ := Option.bind_eq_some_iff.1 h
    obtain ⟨⟨pending, middle⟩, now, h⟩ := Option.bind_eq_some_iff.1 h
    obtain ⟨rest, later, -⟩ := Option.bind_eq_some_iff.1 h
    obtain ⟨pendings, last, ran⟩ := ih later
    refine ⟨pending :: pendings, last, ?_⟩
    simp only [runForms, now, ran, Option.bind_eq_bind, Option.bind_some, Option.pure_def]

/-- The stages of the second pass lead to where it ends. -/
theorem advances_of_stages {forms : List Form} {stores : List Store}
    (h : s.stages? fuel frame forms = some stores) :
    ∃ pendings last, s.runForms fuel frame forms = some (pendings, last) ∧
      Advances s stores last := by
  obtain ⟨pendings, last, ran⟩ := exists_runForms_of_stages h
  obtain ⟨stores', found, advances⟩ := exists_stages ran
  rw [h] at found
  cases found
  exact ⟨pendings, last, ran, advances⟩

/-! ## Moments -/

/-- Every moment of a run settles to all later ones. -/
theorem pairwise_settles_moments {forms : List Form} {n : Nat} {stores : List Store}
    (h : s.moments? fuel frame forms n = some stores) : stores.Pairwise Settles := by
  obtain ⟨rest, found, built⟩ := Option.bind_eq_some_iff.1 h
  cases built
  obtain ⟨pendings, last, -, advances⟩ := advances_of_stages found
  exact advances.pairwise

/-- The store before each form is a moment of the run. -/
theorem mem_moments_of_storeBefore {forms : List Form} {k n : Nat} (le : k ≤ n)
    {stores : List Store} (h : s.moments? fuel frame forms n = some stores) {before : Store}
    (h' : s.storeBefore? fuel frame forms k = some before) : before ∈ stores := by
  obtain ⟨rest, found, built⟩ := Option.bind_eq_some_iff.1 h
  cases built
  obtain ⟨⟨pendings, last⟩, ran, built⟩ := Option.bind_eq_some_iff.1 h'
  cases built
  have cut : forms.take n = forms.take k ++ (forms.drop k).take (n - k) := by
    rw [← List.take_add, Nat.add_sub_cancel' le]
  rw [cut] at found
  obtain ⟨first, further, found', -, rfl⟩ := stages_append ran found
  obtain ⟨pendings', last', ran', advances⟩ := advances_of_stages found'
  rw [ran] at ran'
  cases ran'
  rw [← List.cons_append]
  exact List.mem_append_left _ advances.mem_last

/-- **Evaluation is monotone in the run.** Take all stores that a run goes through after the names
are reserved, one for every name that is filled, and among them the store before each form. Whatever
value an expression has at the top level in one of them, it has in all later ones, and whatever
error it fails with it fails with later, unless that evaluation has failed by looking up a name that
was reserved at that moment. -/
theorem evaluation_is_monotone (s : Store) (fuel : Nat) (frame : FrameId) (forms : List Form)
    (n : Nat) {stores : List Store} (ran : s.moments? fuel frame forms n = some stores) :
    (∀ k before, k ≤ n → s.storeBefore? fuel frame forms k = some before → before ∈ stores) ∧
    ∀ (i j : Nat) (now later : Store), i ≤ j → stores[i]? = some now → stores[j]? = some later →
      ∀ (depth : Nat) (e : Expr),
        (∀ v, now.eval? depth frame e = some (.ok v) → later.eval? depth frame e = some (.ok v)) ∧
        ∀ error, now.eval? depth frame e = some (.error error) →
          later.eval? depth frame e = some (.error error) ∨
            ∃ place name, now.LooksUp depth (.top frame) e place name ∧ place.Awaits now name ∧
              error = .about name .definedLater := by
  refine ⟨fun k before le h => mem_moments_of_storeBefore le ran h, ?_⟩
  intro i j now later le here there depth e
  have settles : now.Settles later := by
    rcases Nat.lt_or_eq_of_le le with lt | rfl
    · obtain ⟨inside, rfl⟩ := List.getElem?_eq_some_iff.1 here
      obtain ⟨inside', rfl⟩ := List.getElem?_eq_some_iff.1 there
      exact List.pairwise_iff_getElem.1 (pairwise_settles_moments ran) i j inside inside' lt
    · rw [here] at there
      cases there
      exact .refl now
  have outcome := settles.evalAtFuel_eq_or depth (.top frame) e
  constructor
  · intro v valued
    rw [eval?, finished?_eq_ok_iff] at valued ⊢
    rcases outcome with same | ⟨place, name, -, -, failed⟩
    · rw [same, valued]
    · rw [valued] at failed
      cases failed
  · intro error failed
    rw [eval?, finished?_eq_error_iff] at failed
    rcases outcome with same | ⟨place, name, looks, awaits, failed'⟩
    · left
      rw [eval?, same, failed]
      rfl
    · right
      rw [failed] at failed'
      cases failed'
      exact ⟨place, name, looks, awaits, rfl⟩

/-- A function that uses a constant before the constant is defined: the function stays what it is,
and a call fails at first because it has looked up the constant in its body. -/
theorem forward_reference_is_settled :
    let s := empty.newTop.2
    let f : Closure := ⟨"f", ["x"], .name "n", 0⟩
    let forms := [.definition (.function f.name f.params f.body),
      .definition (.constant "n" (.boolean true))]
    let call := Expr.call "f" [.boolean false]
    ∃ stores now later, s.moments? 3 0 forms 2 = some stores ∧ stores[1]? = some now ∧
      stores[2]? = some later ∧ later.eval? 3 0 (.name "f") = some (.ok (.closure f)) ∧
      now.eval? 3 0 call = some (.error (.about "n" .definedLater)) ∧
      ∃ place, now.LooksUp 3 (.top 0) call place "n" ∧ place.Awaits now "n" := by
  intro s f forms call
  refine ⟨_, _, _, rfl, rfl, rfl, ?_⟩
  obtain ⟨-, later⟩ := evaluation_is_monotone s 3 0 forms 2 rfl
  have kept := (later 1 2 _ _ (by decide) rfl rfl 3 (.name "f")).1 (.closure f) rfl
  have overtaken := (later 1 2 _ _ (by decide) rfl rfl 3 call).2 (.about "n" .definedLater) rfl
  refine ⟨kept, rfl, ?_⟩
  rcases overtaken with same | ⟨place, name, looks, awaits, error⟩
  · cases same
  · cases error
    exact ⟨place, looks, awaits⟩

end Store

end Tyro
