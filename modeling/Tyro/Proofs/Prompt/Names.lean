import Mathlib.Data.List.Sort
import Tyro.Editor.Complete
import Tyro.Proofs.Form.Matching
import Tyro.Proofs.Program.Reached
import Tyro.Proofs.Sexp.Entries
import Tyro.Proofs.Store.Layers

/-!
# The names that are known at the prompt

What can be completed is known from the text of each entry alone: the names of the library, and
those that the definitions of the entry bind. A run of all entries as one program has its names in
the frame: those that the library has put there, and those that are reserved for definitions. A name
is known in the one way if and only if it is in the other (`Completion.known_names`).

* `definedNames_of_isProgramOf`: a program of complete entries defines the names of its entries,
  since an entry is read in it as by itself, and what is in other places binds the same names.
* `Store.isSome_slot?_run`: a run adds the names that its definitions bind, whatever they come to,
  and takes no name away.
-/

namespace Tyro

/-- The program is made of the entries, each with a line feed after it, or only with line feeds
between them. -/
def Entry.IsProgramOf (entries : List String) (program : String) : Prop :=
  program = programOf entries ∨ program = "\n".intercalate entries

namespace Completion

/-! ## Names in the text -/

/-- Names that are defined further on in a text are the same. -/
theorem flatMap_boundNames_shift (n : Nat) (data : List Sexp.Located) :
    ((data.map (Sexp.Located.shift n)).map fun d => Form.ofSexp d.sexp).flatMap Form.boundNames =
      (data.map fun d => Form.ofSexp d.sexp).flatMap Form.boundNames := by
  rw [List.map_map, List.flatMap_map, List.flatMap_map]
  refine List.flatMap_congr fun d _ => ?_
  simp only [Function.comp_apply, Sexp.Located.shift, Sexp.shift_eq_filterMap]
  exact Form.boundNames_filterMap _ d.sexp

/-- A complete entry and what stands on the lines after it define their names one after the
other. -/
theorem definedNames_append_line {entry : String} (complete : Entry.verdict entry = .complete)
    (rest : String) :
    definedNames (entry ++ "\n" ++ rest) = definedNames entry ++ definedNames rest := by
  unfold definedNames Form.ofText
  rw [Sexp.ofText_append_line complete, List.map_append, List.flatMap_append,
    flatMap_boundNames_shift]

/-- A text of nothing defines no names. -/
theorem definedNames_empty : definedNames "" = [] := by
  have blank : (Text.trim "").isEmpty = true := by decide +kernel
  rw [definedNames, Form.ofText, Sexp.ofText_of_blank blank]
  rfl

/-- A program of complete entries defines the names of its entries. -/
theorem definedNames_of_isProgramOf {entries : List String}
    (complete : ∀ entry ∈ entries, Entry.verdict entry = .complete) {program : String}
    (made : Entry.IsProgramOf entries program) :
    definedNames program = entries.flatMap definedNames := by
  rcases made with rfl | rfl
  · induction entries with
    | nil => exact definedNames_empty
    | cons entry entries ih =>
      obtain ⟨first, others⟩ := List.forall_mem_cons.1 complete
      rw [Entry.programOf_cons, definedNames_append_line first, ih others, List.flatMap_cons]
  · induction entries with
    | nil => exact definedNames_empty
    | cons entry entries ih =>
      obtain ⟨first, others⟩ := List.forall_mem_cons.1 complete
      cases entries with
      | nil => rw [String.intercalate_singleton, List.flatMap_singleton]
      | cons next rest =>
        rw [String.intercalate_cons_cons, definedNames_append_line first, ih others]
        exact List.flatMap_cons.symm

end Completion

/-! ## Names in the frame -/

namespace Store

variable {s last : Store} {frame : FrameId}

/-- A run adds the names that its definitions bind, and takes no name away. -/
theorem isSome_slot?_run (there : frame < s.frames.length) {fuel : Nat} {forms : List Form}
    {results : List FormResult} (h : s.run fuel frame forms = some (results, last))
    (name : String) :
    (last.slot? frame name).isSome = true ↔
      (s.slot? frame name).isSome = true ∨ name ∈ forms.flatMap Form.boundNames := by
  obtain ⟨pendings, ran, -⟩ := run_eq_some_iff.1 h
  have there' : frame < (s.reserveAll frame (forms.flatMap Form.boundNames)).frames.length := by
    rwa [length_reserveAll]
  obtain ⟨-, entries, -, -, slots⟩ := runForms_spec there' ran
  rw [slots, Slot.isSome_receive_eq, slot?_reserveAll there, Option.isSome_or, Bool.or_eq_true]
  refine or_congr_right ?_
  split
  · next mem => exact iff_of_true rfl mem
  · next absent => exact iff_of_false nofun absent

/-- A frame that lies on no other lists the names that it has itself. -/
theorem IsHome.mem_names (home : s.IsHome frame) {name : String} :
    name ∈ s.names frame ↔ (s.slot? frame name).isSome = true := by
  rw [Store.mem_names, home.lookup, Option.isSome_iff_ne_none]

/-- The library binds the names of the built-in functions, of two constants, and of all that the
structure of points binds. -/
theorem mem_map_fst_library {point : StructType} {name : String} :
    name ∈ (library point).map Prod.fst ↔ (∃ f : Builtin, f.name = name) ∨ name = "pi" ∨
      name = "e" ∨ name ∈ structNames point.name point.fields := by
  have builtins : ((Builtin.all.map fun f => (f.name, Value.builtin f)).map Prod.fst) =
      Builtin.all.map Builtin.name := by
    rw [List.map_map]
    rfl
  unfold library
  rw [List.map_append, List.map_append, builtins, point.map_fst_functions]
  simp only [List.mem_append, List.mem_map, Builtin.mem_all, true_and, List.map_cons, List.map_nil,
    List.mem_cons, List.not_mem_nil, or_false, or_assoc]

/-- A frame with the library has the names of the library, whenever it is made. -/
theorem isSome_slot?_newLibrary (s : Store) (name : String) :
    (s.newLibrary.2.slot? s.newLibrary.1 name).isSome = true ↔ (∃ f : Builtin, f.name = name) ∨
      name = "pi" ∨ name = "e" ∨ name ∈ structNames "posn" ["x", "y"] := by
  unfold slot?
  rw [getElem?_newLibrary]
  refine Bindings.isSome_get?_ofList.trans ?_
  rw [List.map_map]
  exact mem_map_fst_library

end Store

namespace Completion

/-- The names of the library are listed as the frame has them. -/
theorem mem_libraryNames {name : String} :
    name ∈ libraryNames ↔ (∃ f : Builtin, f.name = name) ∨ name = "pi" ∨ name = "e" ∨
      name ∈ structNames "posn" ["x", "y"] :=
  (Store.isHome_newLibrary .empty).mem_names.trans (Store.isSome_slot?_newLibrary .empty name)

/-- **Known names.** A new frame with the library, in which the program of complete entries has run,
lists its names in order and each once. They are the names of the library and those that the entries
define, each entry by itself, whatever became of the definitions. The names of the library are those
of the built-in functions and the constants, and what the structure of points binds. -/
theorem known_names {entries : List String}
    (complete : ∀ entry ∈ entries, Entry.verdict entry = .complete) {program : String}
    (made : Entry.IsProgramOf entries program) {s last : Store} {fuel : Nat}
    {results : List FormResult}
    (ran : s.newLibrary.2.run fuel s.newLibrary.1 (Form.ofText program) = some (results, last)) :
    (last.names s.newLibrary.1).Pairwise (· < ·) ∧
      (∀ name, name ∈ last.names s.newLibrary.1 ↔
        name ∈ libraryNames ∨ ∃ entry ∈ entries, name ∈ definedNames entry) ∧
      ∀ name, name ∈ libraryNames ↔ (∃ f : Builtin, f.name = name) ∨ name = "pi" ∨ name = "e" ∨
        name ∈ structNames "posn" ["x", "y"] := by
  have start := s.isHome_newLibrary
  have home : last.IsHome s.newLibrary.1 := start.run ran
  refine ⟨Text.pairwise_sortedNames _, fun name => ?_, fun _ => mem_libraryNames⟩
  calc name ∈ last.names s.newLibrary.1
    _ ↔ (last.slot? s.newLibrary.1 name).isSome = true := home.mem_names
    _ ↔ (s.newLibrary.2.slot? s.newLibrary.1 name).isSome = true ∨
        name ∈ (Form.ofText program).flatMap Form.boundNames :=
      Store.isSome_slot?_run start.there ran name
    _ ↔ name ∈ libraryNames ∨ name ∈ definedNames program := by
      rw [Store.isSome_slot?_newLibrary, mem_libraryNames, definedNames]
    _ ↔ name ∈ libraryNames ∨ ∃ entry ∈ entries, name ∈ definedNames entry := by
      rw [definedNames_of_isProgramOf complete made, List.mem_flatMap]

/-- Entries with a definition that fails, one that is refused because the library has a structure of
that name, one that is fine, and one that is refused because of the one before it. -/
def failingEntries : List String :=
  ["(define a b) ; later", "(define-struct posn (z))", "(define (f x)\n  x) (define f 1)"]

/-- The names of the frame in which they have run. -/
def namesOfFailingEntries : List String :=
  ["*", "+", "-", "/", "<", "<=", "=", ">", ">=", "a", "abs", "boolean?", "cos", "e", "equal?", "f",
    "make-posn", "not", "number?", "pi", "posn-x", "posn-y", "posn-z", "posn?", "sin", "sqrt",
    "string-append", "string-length", "string=?", "string?"]

/-- The names of all four definitions are in the frame, whatever becomes of them. -/
theorem known_names_of_failing_entries :
    ∃ results last, Store.empty.newLibrary.2.run 3 Store.empty.newLibrary.1
        (Form.ofText (Entry.programOf failingEntries)) = some (results, last) ∧
      results.map FormResult.isFailure = [true, true, false, true] ∧
      failingEntries.map definedNames =
        [["a"], ["make-posn", "posn-z", "posn?"], ["f", "f"]] ∧
      last.names Store.empty.newLibrary.1 = namesOfFailingEntries ∧
      ∀ name, name ∈ last.names Store.empty.newLibrary.1 ↔
        name ∈ libraryNames ∨ ∃ entry ∈ failingEntries, name ∈ definedNames entry := by
  have complete : ∀ entry ∈ failingEntries, Entry.verdict entry = .complete := by decide +kernel
  have defined : failingEntries.map definedNames =
      [["a"], ["make-posn", "posn-z", "posn?"], ["f", "f"]] := by decide +kernel
  have outcome : (Store.empty.newLibrary.2.run 3 Store.empty.newLibrary.1
      (Form.ofText (Entry.programOf failingEntries))).map
        (fun ran => (ran.1.map FormResult.isFailure, ran.2.names Store.empty.newLibrary.1)) =
      some ([true, true, false, true], namesOfFailingEntries) := by
    decide +kernel
  obtain ⟨⟨results, last⟩, ran, shown⟩ := Option.map_eq_some_iff.1 outcome
  obtain ⟨failures, names⟩ := Prod.mk.inj shown
  exact ⟨results, last, ran, failures, defined, names, (known_names complete (.inl rfl) ran).2.1⟩

end Completion

end Tyro
