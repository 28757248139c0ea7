import Mathlib.Data.List.Nodup
import Tyro.Proofs.Form.Grammar
import Tyro.Proofs.Program.Moments

/-!
# Whether the names of a structure clash

A structure definition fills several names, and each of them only once: if two of them are the same,
the definition is refused although nobody else has bound the name. The parser sees to it that no
field is named twice. What is left is how the derived names are spelled, with the structure's name
in front, in the middle or behind:

* two accessors differ, and the predicate differs from everything, by what they end in
  (`nodup_accessorNames`, `accessorName_ne_predicateName`, `constructorName_ne_predicateName`);
* the constructor of `s` and the accessor of its field `f` are one name if `make-s` is `s-f`. Then
  `s` begins with `make-` as long as it can, so that it is a repetition of `make`, and `f` is the
  `make` that is left over (`constructorName_eq_accessorName_iff`).

So there is one kind of definition that clashes with itself, `(define-struct make (make))` and the
like (`nodup_structNames_iff`). It is refused like any other definition of a name that is filled
already (`struct_clashes_as_maker`).
-/

namespace Tyro

/-! ## Equations between derived names -/

/-- The word `make`, repeated with hyphens between. -/
def makerName : Nat → String
  | 0 => "make"
  | n + 1 => constructorName (makerName n)

/-- The name is `make`, `make-make` and so on. -/
def IsMaker (name : String) : Prop := ∃ n, name = makerName n

/-- If a word comes out the same with `make-` before it and with a hyphen and something else behind
it, then it is a repetition of `make`, and what stands behind is another `make`. -/
theorem isMaker_of_append_eq {word behind : List Char}
    (h : "make-".toList ++ word = word ++ '-' :: behind) :
    IsMaker (.ofList word) ∧ behind = "make".toList := by
  rcases List.append_eq_append_iff.1 h with ⟨rest, rfl, h'⟩ | ⟨rest, short, overlap⟩
  · -- The word begins with `make-` itself, and the rest of it solves the same equation.
    have shorter : rest.length < ("make-".toList ++ rest).length := by
      rw [List.length_append]
      exact Nat.lt_add_of_pos_left (by decide)
    obtain ⟨⟨n, maker⟩, same⟩ := isMaker_of_append_eq h'
    refine ⟨⟨n + 1, ?_⟩, same⟩
    rw [String.ofList_append, maker, String.ofList_toList]
    rfl
  · -- The word ends inside `make-`, where a hyphen follows it.
    cases rest with
    | nil =>
      rw [List.append_nil] at short
      rw [List.nil_append, ← short] at overlap
      exact absurd (List.cons.inj overlap).1 (by decide)
    | cons c rest =>
      obtain ⟨rfl, same⟩ := List.cons.inj overlap
      have cut : "make".toList ++ '-' :: [] = word ++ '-' :: rest := short
      obtain ⟨rfl, -, rfl⟩ :=
        (List.append_cons_inj_of_notMem (by decide) List.not_mem_nil).1 cut
      exact ⟨⟨0, rfl⟩, same⟩
termination_by word.length

/-- A constructor has the name of an accessor exactly if the structure's name is a repetition of
`make` and the field's is `make`. -/
theorem constructorName_eq_accessorName_iff {struct field : String} :
    constructorName struct = accessorName struct field ↔ IsMaker struct ∧ field = "make" := by
  constructor
  · intro same
    have h : "make-".toList ++ struct.toList = struct.toList ++ '-' :: field.toList := by
      have spelled := congrArg String.toList same
      rw [constructorName, accessorName, String.toList_append, String.toList_append,
        String.toList_append, List.append_assoc] at spelled
      exact spelled
    obtain ⟨maker, behind⟩ := isMaker_of_append_eq h
    rw [String.ofList_toList] at maker
    exact ⟨maker, String.toList_inj.1 behind⟩
  · rintro ⟨⟨n, rfl⟩, rfl⟩
    induction n with
    | zero => rfl
    | succ n ih =>
      -- The equation for one `make` less, with `make-` put in front of both sides.
      calc constructorName (makerName (n + 1))
        _ = "make-" ++ constructorName (makerName n) := rfl
        _ = "make-" ++ (makerName n ++ "-" ++ "make") := by rw [ih, accessorName]
        _ = accessorName (makerName (n + 1)) "make" := by
          rw [accessorName, makerName, constructorName, String.append_assoc, String.append_assoc,
            String.append_assoc]

/-- A constructor never has the name of a predicate, which has one letter more than the structure's
name. -/
theorem constructorName_ne_predicateName (struct : String) :
    constructorName struct ≠ predicateName struct := by
  intro same
  have lengths := congrArg String.length same
  rw [constructorName, predicateName, String.length_append, String.length_append,
    Nat.add_comm] at lengths
  exact absurd (Nat.add_left_cancel lengths) (by decide)

/-- An accessor never has the name of the predicate. -/
theorem accessorName_ne_predicateName (struct field : String) :
    accessorName struct field ≠ predicateName struct := by
  intro same
  rw [accessorName, predicateName, String.append_assoc, String.append_right_inj] at same
  have spelled := congrArg String.toList same
  rw [String.toList_append] at spelled
  exact absurd (List.cons.inj spelled).1 (by decide)

/-- Accessors of different fields have different names. -/
theorem accessorName_injective (struct : String) : Function.Injective (accessorName struct) := by
  intro field other same
  rw [accessorName, accessorName, String.append_right_inj] at same
  exact same

/-! ## The names of a definition -/

/-- Apart from the constructor's, the names of a structure are all different. -/
theorem nodup_accessorNames {fields : List String} (distinct : fields.Nodup) (struct : String) :
    (fields.map (accessorName struct) ++ [predicateName struct]).Nodup := by
  refine List.nodup_append.2
    ⟨List.Nodup.map (accessorName_injective struct) distinct, List.nodup_singleton _, ?_⟩
  rintro name accessor other predicate rfl
  obtain ⟨field, -, rfl⟩ := List.mem_map.1 accessor
  exact accessorName_ne_predicateName struct field (List.mem_singleton.1 predicate)

/-- The names of a structure are all different, unless a repetition of `make` has a field `make`. -/
theorem nodup_structNames_iff {fields : List String} (distinct : fields.Nodup) (struct : String) :
    (structNames struct fields).Nodup ↔ ¬ (IsMaker struct ∧ "make" ∈ fields) := by
  rw [structNames, List.cons_append, List.nodup_cons,
    and_iff_left (nodup_accessorNames distinct struct), List.mem_append, List.mem_singleton,
    or_iff_left (constructorName_ne_predicateName struct), not_iff_not, List.mem_map]
  constructor
  · rintro ⟨field, mem, same⟩
    obtain ⟨maker, rfl⟩ := constructorName_eq_accessorName_iff.1 same.symm
    exact ⟨maker, mem⟩
  · rintro ⟨maker, mem⟩
    exact ⟨"make", mem, (constructorName_eq_accessorName_iff.2 ⟨maker, rfl⟩).symm⟩

/-! ## Clashes -/

/-- Where no name is taken and none occurs twice, there is no clash. -/
theorem not_isFirstClash_of_nodup {taken : String → Prop} {names : List String}
    (free : ∀ other ∈ names, ¬ taken other) (distinct : names.Nodup) (name : String) :
    ¬ IsFirstClash taken names name := by
  rintro ⟨before, after, rfl, clash, -⟩
  rcases clash with earlier | inside
  · exact free name (List.mem_append_right before List.mem_cons_self) earlier
  · exact (List.nodup_append.1 distinct).2.2 name inside name List.mem_cons_self rfl

/-- Where no name is taken, the first clash in a repetition of `make` with a field `make` is its
constructor's name, at the accessor. -/
theorem isFirstClash_constructorName {taken : String → Prop} {struct : String}
    {fields : List String} (free : ∀ other ∈ structNames struct fields, ¬ taken other)
    (distinct : fields.Nodup) (maker : IsMaker struct) (mem : "make" ∈ fields) :
    IsFirstClash taken (structNames struct fields) (constructorName struct) := by
  obtain ⟨fieldsBefore, fieldsAfter, rfl⟩ := List.append_of_mem mem
  obtain ⟨distinctBefore, -, apart⟩ := List.nodup_append.1 distinct
  have shared := constructorName_eq_accessorName_iff.2 ⟨maker, rfl⟩
  have cut : structNames struct (fieldsBefore ++ "make" :: fieldsAfter) =
      (constructorName struct :: fieldsBefore.map (accessorName struct)) ++
        constructorName struct ::
          (fieldsAfter.map (accessorName struct) ++ [predicateName struct]) := by
    rw [structNames, List.map_append, List.map_cons, ← shared, ← List.cons_append,
      List.append_assoc]
    rfl
  have new : constructorName struct ∉ fieldsBefore.map (accessorName struct) := by
    intro inside
    obtain ⟨field, before, same⟩ := List.mem_map.1 inside
    have isMake := (constructorName_eq_accessorName_iff.1 same.symm).2
    exact apart field before "make" List.mem_cons_self isMake
  refine ⟨_, _, cut, .inr List.mem_cons_self, List.nodup_cons.2 ⟨new, ?_⟩, fun other inside => ?_⟩
  · exact List.Nodup.map (accessorName_injective struct) distinctBefore
  · exact free other (cut ▸ List.mem_append_left _ inside)

namespace Store

variable {s : Store} {frame : FrameId}

/-- A structure definition whose names have slots is bound, or refused for the first clash. -/
theorem exists_runDefinition_struct (there : frame < s.frames.length) {name : String}
    {fields : List String}
    (has : ∀ other ∈ structNames name fields, (s.slot? frame other).isSome = true) (fuel : Nat) :
    ∃ r after, s.runDefinition fuel frame (.struct name fields) = some (r, after) ∧
      (r = .structBound name ∨ ∃ other, r = .unbound (.alreadyDefined other) ∧
        IsFirstClash (s.IsFilled frame) (structNames name fields) other) := by
  refine ⟨_, _, runDefinition_struct s fuel frame name fields, ?_⟩
  cases refused : ((s.newStruct name fields).2.fillAll frame
      (s.newStruct name fields).1.functions).1 with
  | none => exact .inl rfl
  | some e =>
    have there' : frame < (s.newStruct name fields).2.frames.length := there
    obtain ⟨other, clash, rfl⟩ :=
      (fillAll_fst_eq_some_iff there' (isSome_slot?_newStruct has)).1 refused
    rw [StructType.map_fst_functions] at clash
    exact .inr ⟨other, rfl, clash⟩

/-- **A structure definition clashes with itself in one case only.** For every definition of a
structure that the parser accepts, the names of the accessors and the predicate are all different,
and the constructor's name is different from them unless the structure is called `make`,
`make-make` or so on and has a field `make`; then the constructor and the accessor of that field
share one name.

So wherever the second pass arrives at the definition with none of its names bound at the start or
by an earlier definition, it binds them all, except in that case, in which the definition is refused
for the shared name. -/
theorem struct_clashes_only_as_maker {sexp : Sexp} {name : String} {fields : List String}
    (accepted : Form.ofSexp sexp = .definition (.struct name fields)) :
    (fields.map (accessorName name) ++ [predicateName name]).Nodup ∧
    ((structNames name fields).Nodup ↔ ¬ (IsMaker name ∧ "make" ∈ fields)) ∧
    (IsMaker name → constructorName name = accessorName name "make") ∧
    ∀ (s : Store) (fuel : Nat) (frame : FrameId) (forms : List Form) (i : Nat) (before : Store),
      frame < s.frames.length → forms[i]? = some (.definition (.struct name fields)) →
      s.storeBefore? fuel frame forms i = some before →
      (∀ other ∈ structNames name fields,
        ¬ s.IsFilled frame other ∧ other ∉ (forms.take i).flatMap Form.boundNames) →
      ∃ r after, before.runDefinition fuel frame (.struct name fields) = some (r, after) ∧
        (¬ (IsMaker name ∧ "make" ∈ fields) → r = .structBound name) ∧
        (IsMaker name ∧ "make" ∈ fields →
          r = .unbound (.alreadyDefined (constructorName name))) := by
  have distinct : fields.Nodup := by
    cases Form.denotesForm_of_ofSexp accepted id with
    | struct _ _ _ distinct => exact distinct
  refine ⟨nodup_accessorNames distinct name, nodup_structNames_iff distinct name,
    fun maker => constructorName_eq_accessorName_iff.2 ⟨maker, rfl⟩, ?_⟩
  intro s fuel frame forms i before there place h free
  have thereBefore : frame < before.frames.length := by rwa [length_storeBefore there h]
  have unfilled : ∀ other ∈ structNames name fields, ¬ before.IsFilled frame other := by
    intro other mem filled
    rcases (isFilled_storeBefore there h other).1 filled with start | earlier
    · exact (free other mem).1 start
    · exact (free other mem).2 earlier
  have has : ∀ other ∈ (Definition.struct name fields).boundNames,
      (before.slot? frame other).isSome = true := fun other mem => isSome_slot?_storeBefore there h
      (List.mem_flatMap.2 ⟨_, List.mem_of_getElem? place, mem⟩)
  obtain ⟨r, after, defined, outcome⟩ := exists_runDefinition_struct thereBefore has fuel
  refine ⟨r, after, defined, fun apart => ?_, fun ⟨maker, mem⟩ => ?_⟩
  · obtain rfl | ⟨other, -, clash⟩ := outcome
    · rfl
    · have allDistinct := (nodup_structNames_iff distinct name).2 apart
      exact absurd clash (not_isFirstClash_of_nodup unfilled allDistinct other)
  · exact (runDefinition_alreadyDefined_iff thereBefore has defined _).2
      (isFirstClash_constructorName unfilled distinct maker mem)

/-- Two structures one after the other in an empty frame. The second is a repetition of `make` and
has no field `make`, so that it does not clash with itself. -/
theorem struct_make_with_other_field :
    let s := empty.newTop.2
    let struct := Definition.struct "make" ["maker"]
    let forms := [.definition (.struct "p" ["x"]), .definition struct]
    let sexp := Sexp.list [.name "define-struct", .name "make", .list [.name "maker"]]
    Form.ofSexp sexp = .definition struct ∧ 0 < s.frames.length ∧
      (∀ other ∈ structNames "make" ["maker"],
        ¬ s.IsFilled 0 other ∧ other ∉ (forms.take 1).flatMap Form.boundNames) ∧
      ∃ before after, s.storeBefore? 3 0 forms 1 = some before ∧
        before.runDefinition 3 0 struct = some (.structBound "make", after) := by
  intro s struct forms sexp
  have parsed : Form.ofSexp sexp = .definition struct := by rfl
  have there : 0 < s.frames.length := by decide
  have free : ∀ other ∈ structNames "make" ["maker"],
      ¬ s.IsFilled 0 other ∧ other ∉ (forms.take 1).flatMap Form.boundNames := by
    intro other mem
    refine ⟨fun ⟨result, filled⟩ => ?_, ?_⟩
    · cases filled
    · revert other
      decide
  have noClash : ¬ (IsMaker "make" ∧ "make" ∈ ["maker"]) := fun h => absurd h.2 (by decide)
  obtain ⟨-, -, -, runs⟩ := struct_clashes_only_as_maker parsed
  obtain ⟨r, after, defined, bound, -⟩ := runs s 3 0 forms 1 _ there rfl rfl free
  refine ⟨parsed, there, free, _, after, rfl, ?_⟩
  rw [defined, bound noClash]

/-- The definition `(define-struct make (make))` is accepted, and two of its names are the same. In
an empty frame that binds nothing it is refused for that name. -/
theorem struct_make_make_clashes :
    ∃ sexp, Form.ofSexp sexp = .definition (.struct "make" ["make"]) ∧
      ¬ (structNames "make" ["make"]).Nodup ∧
      (∀ other ∈ structNames "make" ["make"], ¬ empty.newTop.2.IsFilled 0 other) ∧
      ∃ before after,
        empty.newTop.2.storeBefore? 3 0 [.definition (.struct "make" ["make"])] 0 = some before ∧
        before.runDefinition 3 0 (.struct "make" ["make"]) =
          some (.unbound (.alreadyDefined "make-make"), after) := by
  refine ⟨.list [.name "define-struct", .name "make", .list [.name "make"]], rfl, by decide, ?_,
    _, _, rfl, rfl⟩
  rintro other - ⟨result, filled⟩
  cases filled

end Store

end Tyro
