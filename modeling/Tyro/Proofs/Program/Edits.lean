import Tyro.Proofs.Program.Definitions

/-!
# Programs with the same definitions

Expressions, tests and malformed forms leave nothing behind. `result_of_same_definitions` compares
two programs whose definitions are the same in the same order: a form that stands in both after the
same definitions has the same result in both, and a test has it wherever it stands.

Programs get into this relation by being edited. An `Edit` keeps, inserts or deletes a form, and a
list of them is a program before and after. As long as no definition is inserted or deleted, all
forms that are kept keep their results (`results_of_edited`); a test that is moved is deleted at
one place and inserted at another, and keeps its result too.
-/

namespace Tyro

/-- The definitions of a program, in order. -/
def Form.definitions (forms : List Form) : List Definition := forms.filterMap Form.definition?

namespace Store

variable {s t : Store} {frame : FrameId} {fuel fuel' : Nat}

/-! ## Two programs -/

/-- Where definitions are the same, programs leave the same store, with whatever fuel they get
there. -/
theorem store_of_same_definitions {forms forms' : List Form}
    (same : Form.definitions forms = Form.definitions forms') {pendings pendings' : List Pending}
    {t t' : Store} (h : s.runForms fuel frame forms = some (pendings, t))
    (h' : s.runForms fuel' frame forms' = some (pendings', t')) : t = t' := by
  obtain ⟨bare, ran⟩ := runForms_definitions h
  obtain ⟨bare', ran'⟩ := runForms_definitions h'
  change s.runForms fuel frame ((Form.definitions forms).map .definition) = _ at ran
  rw [same] at ran
  have whole := eq_of_mono (fun le => runForms_mono s le frame _) ran ran'
  exact congrArg Prod.snd whole

/-- Two programs with the same definitions reserve the same names. -/
theorem reserved_of_same_definitions {forms forms' : List Form}
    (same : Form.definitions forms = Form.definitions forms') :
    forms.flatMap Form.boundNames = forms'.flatMap Form.boundNames := by
  rw [← flatMap_boundNames_definitions forms, ← flatMap_boundNames_definitions forms']
  exact congrArg (List.flatMap Definition.boundNames) same

/-- Two programs with the same definitions leave the same store. -/
theorem after_of_same_definitions {forms forms' : List Form} {results results' : List FormResult}
    {after after' : Store} (h : s.Runs frame forms results after)
    (h' : s.Runs frame forms' results' after')
    (same : Form.definitions forms = Form.definitions forms') : after = after' := by
  obtain ⟨fuel, ran⟩ := h
  obtain ⟨fuel', ran'⟩ := h'
  obtain ⟨pendings, passed, -⟩ := run_eq_some_iff.1 ran
  obtain ⟨pendings', passed', -⟩ := run_eq_some_iff.1 ran'
  rw [← reserved_of_same_definitions same] at passed'
  exact store_of_same_definitions same passed passed'

/-- What waits for the third pass is settled in one way only. -/
theorem settle_unique {pending : Pending} {r r' : FormResult}
    (h : s.settle fuel frame [pending] = some [r])
    (h' : s.settle fuel' frame [pending] = some [r']) : r = r' :=
  List.singleton_inj.1 (eq_of_mono (fun le => s.settle_mono le frame [pending]) h h')

/-- A test waits, whatever has been defined. -/
theorem pending_of_check {c : Check} {pending : Pending}
    (h : s.runForm fuel frame (.check c) = some (pending, t)) : pending = .waiting c := by
  cases h
  rfl

/-- **Only definitions influence other forms.** A form that stands in two programs with the same
definitions has the same result in both if the same definitions stand before it, or if it is a
test. -/
theorem result_of_same_definitions {forms forms' : List Form} {results results' : List FormResult}
    {after after' : Store} (h : s.Runs frame forms results after)
    (h' : s.Runs frame forms' results' after')
    (same : Form.definitions forms = Form.definitions forms') {i j : Nat} {form : Form}
    (place : forms[i]? = some form) (place' : forms'[j]? = some form)
    (earlier : (∃ c, form = .check c) ∨
      Form.definitions (forms.take i) = Form.definitions (forms'.take j)) :
    ∃ r, results[i]? = some r ∧ results'[j]? = some r := by
  have last := after_of_same_definitions h h' same
  obtain ⟨fuel, ran⟩ := h
  obtain ⟨fuel', ran'⟩ := h'
  obtain ⟨pendings, passed, settled⟩ := run_eq_some_iff.1 ran
  obtain ⟨pendings', passed', settled'⟩ := run_eq_some_iff.1 ran'
  rw [← reserved_of_same_definitions same] at passed'
  obtain ⟨first, before, pending, next, ranBefore, now, waits⟩ := runForms_getElem? passed place
  obtain ⟨first', before', pending', next', ranBefore', now', waits'⟩ :=
    runForms_getElem? passed' place'
  have pendingSame : pending = pending' := by
    rcases earlier with ⟨c, rfl⟩ | earlier
    · rw [pending_of_check now, pending_of_check now']
    · have here : before = before' := store_of_same_definitions earlier ranBefore ranBefore'
      subst here
      have whole := eq_of_mono (fun le => runForm_mono before le frame form) now now'
      exact congrArg Prod.fst whole
  obtain ⟨r, result, settledHere⟩ := settle_getElem? settled waits
  obtain ⟨r', result', settledHere'⟩ := settle_getElem? settled' waits'
  rw [← last, ← pendingSame] at settledHere'
  rw [← settle_unique settledHere settledHere'] at result'
  exact ⟨r, result, result'⟩

end Store

/-! ## Edits -/

/-- What is done to one form of a program that is edited. -/
inductive Edit where
  | keep (form : Form)
  | insert (form : Form)
  | delete (form : Form)

namespace Edit

/-- The form that is there before the edit. -/
def before? : Edit → Option Form
  | .keep form => some form
  | .insert _ => none
  | .delete form => some form

/-- The form that is there after the edit. -/
def after? : Edit → Option Form
  | .keep form => some form
  | .insert form => some form
  | .delete _ => none

/-- The program before it is edited. -/
def before (script : List Edit) : List Form := script.filterMap before?

/-- The program after it has been edited. -/
def after (script : List Edit) : List Form := script.filterMap after?

/-- No definition is inserted or deleted. -/
def SparesDefinitions : Edit → Prop
  | .keep _ => True
  | .insert form => form.definition? = none
  | .delete form => form.definition? = none

/-- An edit that spares definitions leaves the same definitions. -/
theorem SparesDefinitions.same {edit : Edit} (spares : edit.SparesDefinitions) :
    edit.before?.bind Form.definition? = edit.after?.bind Form.definition? := by
  cases edit with
  | keep form => rfl
  | insert form => exact spares.symm
  | delete form => exact spares

/-- Edits that spare definitions leave the same definitions. -/
theorem definitions_eq {script : List Edit} (spares : ∀ edit ∈ script, edit.SparesDefinitions) :
    Form.definitions (before script) = Form.definitions (after script) := by
  unfold Form.definitions before after
  rw [List.filterMap_filterMap, List.filterMap_filterMap]
  exact List.filterMap_congr fun edit mem => (spares edit mem).same

/-- A form that is kept stands after what is left of the edits before it. -/
theorem keep_place (f : Edit → Option Form) {script : List Edit} {k : Nat} {form : Form}
    {edit : Edit} (place : script[k]? = some edit) (there : f edit = some form) :
    (script.filterMap f)[((script.take k).filterMap f).length]? = some form ∧
      (script.filterMap f).take ((script.take k).filterMap f).length =
        (script.take k).filterMap f := by
  obtain ⟨inside, here⟩ := List.getElem?_eq_some_iff.1 place
  have cut : script = script.take k ++ edit :: script.drop (k + 1) := by
    rw [← here, List.getElem_cons_drop inside, List.take_append_drop]
  have parts : script.filterMap f =
      (script.take k).filterMap f ++ form :: (script.drop (k + 1)).filterMap f := by
    conv_lhs => rw [cut]
    rw [List.filterMap_append, List.filterMap_cons_some there]
  rw [parts]
  exact ⟨by simp, by simp⟩

end Edit

namespace Store

variable {s : Store} {frame : FrameId}

/-- **Editing a program anywhere but in its definitions leaves all other results as they are.** Let
expressions, tests and malformed forms be inserted and deleted in any number and at any places. If
the program gets to its end before and after, then every form that is kept has the same result, and
so has every test that stands in both programs, at whatever places. The two runs leave the same
store. -/
theorem results_of_edited {script : List Edit}
    (spares : ∀ edit ∈ script, edit.SparesDefinitions) {results results' : List FormResult}
    {last last' : Store} (h : s.Runs frame (Edit.before script) results last)
    (h' : s.Runs frame (Edit.after script) results' last') :
    (∀ (k : Nat) (form : Form), script[k]? = some (.keep form) →
      ∃ r, results[(Edit.before (script.take k)).length]? = some r ∧
        results'[(Edit.after (script.take k)).length]? = some r) ∧
    (∀ (i j : Nat) (c : Check), (Edit.before script)[i]? = some (.check c) →
      (Edit.after script)[j]? = some (.check c) →
        ∃ r, results[i]? = some r ∧ results'[j]? = some r) ∧
    last = last' := by
  have same := Edit.definitions_eq spares
  refine ⟨fun k form kept => ?_, fun i j c place place' => ?_, after_of_same_definitions h h' same⟩
  · obtain ⟨place, earlier⟩ := Edit.keep_place Edit.before? kept rfl
    obtain ⟨place', earlier'⟩ := Edit.keep_place Edit.after? kept rfl
    have sparesEarlier : ∀ edit ∈ script.take k, edit.SparesDefinitions :=
      fun edit mem => spares edit (List.mem_of_mem_take mem)
    refine result_of_same_definitions h h' same place place' (.inr ?_)
    calc Form.definitions ((Edit.before script).take (Edit.before (script.take k)).length)
        = Form.definitions (Edit.before (script.take k)) := congrArg Form.definitions earlier
      _ = Form.definitions (Edit.after (script.take k)) := Edit.definitions_eq sparesEarlier
      _ = Form.definitions ((Edit.after script).take (Edit.after (script.take k)).length) :=
          (congrArg Form.definitions earlier').symm
  · exact result_of_same_definitions h h' same place place' (.inl ⟨c, rfl⟩)

/-- A test is moved from behind the function that it calls to the front of the program, and a call
with a wrong number of arguments is put in its place: the test still passes, and the other call has
the value that it had. -/
theorem results_of_edited_with_moved_check :
    let check := Form.check (.expect (.call "f" [.string "a"]) (.string "a"))
    let f := Form.definition (.function "f" ["p"] (.name "p"))
    let call := Form.expression (.call "f" [.string "b"])
    let script : List Edit := [.insert check, .keep f, .delete check,
      .insert (.expression (.call "f" [])), .keep call]
    (∀ edit ∈ script, edit.SparesDefinitions) ∧ ∃ results results' last last',
      empty.newTop.2.Runs 0 [f, check, call] results last ∧
      empty.newTop.2.Runs 0 [check, f, .expression (.call "f" []), call] results' last' ∧
      results[1]? = some (.check .success) ∧ results'[0]? = some (.check .success) ∧
      ∃ r, results[2]? = some r ∧ results'[3]? = some r := by
  intro check f call script
  have spares : ∀ edit ∈ script, edit.SparesDefinitions := by
    simp [script, check, Edit.SparesDefinitions, Form.definition?]
  obtain ⟨results, results', last, last', ran, ran', passes, passes'⟩ :
      ∃ results results' last last',
        empty.newTop.2.Runs 0 (Edit.before script) results last ∧
        empty.newTop.2.Runs 0 (Edit.after script) results' last' ∧
        results[1]? = some (.check .success) ∧ results'[0]? = some (.check .success) :=
    ⟨_, _, _, _, ⟨3, rfl⟩, ⟨3, rfl⟩, rfl, rfl⟩
  obtain ⟨kept, -, -⟩ := results_of_edited spares ran ran'
  exact ⟨spares, results, results', last, last', ran, ran', passes, passes', kept 4 call rfl⟩

end Store

end Tyro
