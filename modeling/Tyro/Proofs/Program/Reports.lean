import Tyro.CommandLine
import Tyro.Proofs.Form.Matching
import Tyro.Proofs.Prompt.Aligned
import Tyro.Proofs.Sexp.Spans

/-!
# The reports of a run

A run is reported three times: as the lines that are printed, as diagnostics for what fails, and as
the status of the command. Whether a form fails is asked in two places, of the result for the status
and of its diagnostic for the reports; `Diagnostic.isSome_ofResult` says that the answers agree.

* `Diagnostic.Describes` is what a diagnostic says of a form that fails: where it stands, the line
  that is printed for it, and that the text of the span, read alone, is this form.
* `Form.exists_alone` gives the last of these for every form of a text. The parser sees the same
  shape (`Sexp.matching_movesTo`), whether the form is read in its place or alone.
* `Program.reports_agree` puts the reports together.
-/

namespace Tyro

/-! ## Forms read alone -/

namespace Sexp

/-- The first S-expression, moved to a byte offset, is the second, but for blank tokens that an
unclosed group has at its end. -/
def MovesTo (n : Nat) (alone whole : Sexp) : Prop := whole.UpToBlanks (alone.shift n)

/-- S-expressions of one shape stay so if their items are related otherwise, too. -/
theorem Shape.imp {R S : Sexp → Sexp → Prop} (implies : ∀ s t, R s t → S s t) {s t : Sexp}
    (shape : Shape R s t) : Shape S s t := by
  cases shape with
  | string content => exact .string content
  | number value => exact .number value
  | boolean value => exact .boolean value
  | name word => exact .name word
  | list all => exact .list (all.imp implies)
  | error e e' => exact .error e e'

/-- What is moved has the same shape as before. -/
theorem matching_movesTo (n : Nat) : Matching (MovesTo n) := by
  intro alone whole h
  unfold MovesTo at h
  generalize moved : alone.shift n = there at h
  cases h with
  | same =>
    subst moved
    have shape := matching_filterMap (some ∘ Token.shift n) alone _ rfl
    rw [← shift_eq_filterMap] at shape
    refine shape.imp fun s t same => ?_
    rw [MovesTo, shift_eq_filterMap, same]
    exact .same _
  | unclosed tokens blank =>
    -- only an error is moved to an error, and errors match whatever their tokens are
    cases alone with
    | error e => exact .error _ _
    | string | number | boolean | name | list =>
      rw [shift] at moved
      cases moved

end Sexp

/-- **Forms stand alone.** The text of the span of a form, read alone, is exactly this form. -/
theorem Form.exists_alone (source : String) : ∀ d ∈ Sexp.ofText source, ∃ slice form,
    d.span.slice? source = some slice ∧ ofText slice = [form] ∧
      form.Matches (Sexp.MovesTo d.span.start) (ofSexp d.sexp) := by
  intro d mem
  obtain ⟨before, core, after, alone, cut, start, stop, bounded, reads, same⟩ :=
    (Sexp.layout_ofText source).exists_core d mem
  have chars := Token.flatMap_chars_pieces source.toList
  rw [cut, List.flatMap_append, List.flatMap_append] at chars
  rw [Nat.zero_add] at start
  obtain ⟨sexp, read, moved⟩ := Sexp.ofText_of_pieces (Token.pieces_between cut) bounded reads
  refine ⟨String.ofList (core.flatMap Piece.chars), ofSexp sexp, ?_, ?_, ?_⟩
  · have whole : d.span = ⟨Token.width before, Token.width before + Token.width core⟩ := by
      rw [← start, ← stop]
    rw [whole]
    exact Span.slice?_append chars.symm
  · rw [ofText, read, List.map_singleton]
  · rw [← moved] at same
    exact ofSexp_matches (Sexp.matching_movesTo _) same

/-! ## Diagnostics -/

namespace Diagnostic

/-- The diagnostic describes a form that fails in a program text, with its result: the text of its
span is this form, and its message is the line that is printed for it. -/
structure Describes (source : String) (failed : Form × LocatedResult) (d : Diagnostic) : Prop where
  span : d.span = failed.2.span
  message : d.message = failed.2.result.text
  alone : ∃ slice form, d.span.slice? source = some slice ∧ Form.ofText slice = [form] ∧
    form.Matches (Sexp.MovesTo d.span.start) failed.1

/-- The forms of a program text that fail, in order, with their results. -/
def failures (source : String) (results : List LocatedResult) : List (Form × LocatedResult) :=
  ((Form.ofText source).zip results).filter fun (_, r) => r.result.isFailure

/-- Every form stands in the text where its result says. -/
theorem exists_located {data : List Sexp.Located} {rs : List FormResult} :
    ∀ p ∈ (Form.ofData data).zip (Program.locate rs data), ∃ d ∈ data,
      p.1 = Form.ofSexp d.sexp ∧ p.2.span = d.span := by
  induction data generalizing rs with
  | nil => exact List.forall_mem_nil _
  | cons d data ih =>
    cases rs with
    | nil => exact List.forall_mem_nil _
    | cons r rs =>
      refine List.forall_mem_cons.2 ⟨⟨d, List.mem_cons_self, rfl, rfl⟩, fun p mem => ?_⟩
      obtain ⟨e, later, form, span⟩ := ih p mem
      exact ⟨e, List.mem_cons_of_mem d later, form, span⟩

/-- A list of what some elements give, and of these elements, in order. -/
theorem forall₂_filterMap {α β : Type} {R : α → β → Prop} {f : α → Option β} {p : α → Bool}
    (same : ∀ a, (f a).isSome = p a) (xs : List α)
    (related : ∀ a ∈ xs, ∀ b, f a = some b → R a b) :
    List.Forall₂ R (xs.filter p) (xs.filterMap f) := by
  induction xs with
  | nil => exact .nil
  | cons a xs ih =>
    obtain ⟨head, tail⟩ := List.forall_mem_cons.1 related
    have given := same a
    cases found : f a with
    | none =>
      rw [found] at given
      rw [List.filter_cons_of_neg (by simp [← given]), List.filterMap_cons_none found]
      exact ih tail
    | some b =>
      rw [found] at given
      rw [List.filter_cons_of_pos (by simp [← given]), List.filterMap_cons_some found]
      exact .cons (head b found) (ih tail)

/-- A diagnostic has the span of the form and the line that is printed for it. -/
theorem of_ofResult {r : LocatedResult} {d : Diagnostic} (h : ofResult r = some d) :
    d.span = r.span ∧ d.message = r.result.text := by
  obtain ⟨⟨severity, part⟩, -, rfl⟩ := Option.map_eq_some_iff.1 h
  exact ⟨rfl, rfl⟩

end Diagnostic

/-! ## The reports -/

namespace Program

variable {fuel : Nat} {source : String} {results : List LocatedResult}

/-- There is a result for each form of a text. -/
theorem length_runText (ran : runText fuel source = some results) :
    results.length = (Form.ofText source).length := by
  obtain ⟨rs, s, forms, rfl⟩ := runText_eq_some_iff.1 ran
  have length := length_run forms
  rw [Form.ofData, List.length_map] at length
  rw [length_locate length, Form.ofText, List.length_map]

/-- The diagnostics of a text describe the forms that fail. -/
theorem describes_failures (ran : runText fuel source = some results) :
    List.Forall₂ (Diagnostic.Describes source) (Diagnostic.failures source results)
      (results.filterMap Diagnostic.ofResult) := by
  -- the diagnostics do not know of the forms: they are paired with them first
  have zipped : results.filterMap Diagnostic.ofResult =
      ((Form.ofText source).zip results).filterMap (Diagnostic.ofResult ∘ Prod.snd) := by
    rw [← List.filterMap_map, List.map_snd_zip (length_runText ran).le]
  rw [zipped]
  refine Diagnostic.forall₂_filterMap
    (fun p : Form × LocatedResult => Diagnostic.isSome_ofResult p.2) _ ?_
  intro failed mem d given
  obtain ⟨rs, s, -, rfl⟩ := runText_eq_some_iff.1 ran
  obtain ⟨located, there, form, span⟩ := Diagnostic.exists_located failed mem
  obtain ⟨span', message⟩ := Diagnostic.of_ofResult given
  obtain ⟨slice, alone, sliced, read, same⟩ := Form.exists_alone source located there
  rw [← span, ← span'] at sliced same
  rw [← form] at same
  exact ⟨span', message, slice, alone, sliced, read, same⟩

/-- The lines that a text prints. -/
theorem output_eq_lines (ran : runText fuel source = some results) :
    output fuel source = some (if results = [] then "\n" else
      String.join (results.map fun r => r.result.text ++ "\n")) := by
  rw [output, ran]
  cases results with
  | nil => rfl
  | cons r results =>
    have printed : FormResult.print ((r :: results).map (·.result)) =
        String.join (((r :: results).map (·.result)).map fun r => r.text ++ "\n") := rfl
    rw [List.map_map] at printed
    rw [if_neg (List.cons_ne_nil r results)]
    exact congrArg some printed

/-- The status of the command is 1 if there is a diagnostic. -/
theorem status_eq_one_iff (ran : runText fuel source = some results)
    {o : CommandLine.Options} (strict : o.strict = true) :
    ∃ exit, CommandLine.run fuel o source = some exit ∧
      (exit.status = 1 ↔ results.filterMap Diagnostic.ofResult ≠ []) := by
  have failed : (results.any fun r => r.result.isFailure) = true ↔
      results.filterMap Diagnostic.ofResult ≠ [] := by
    simp only [List.any_eq_true, ← Diagnostic.isSome_ofResult, Option.isSome_iff_ne_none, Ne,
      List.filterMap_eq_nil_iff, not_forall, exists_prop]
  refine ⟨_, by rw [CommandLine.run, ran]; rfl, ?_⟩
  rw [← failed]
  dsimp only
  rw [strict, Bool.true_and]
  cases results.any fun r => r.result.isFailure <;> decide

/-- **The reports of a run agree.** When a text has run, there is a result for each of its forms,
and a diagnostic for each form that fails, in order, and for no other. The diagnostic has the line
that is printed for the form, and the text of its span, read alone, is just this form. What is
printed is the lines of all forms, or an empty line if there are none. The status of the command,
where it is to be strict, is 1 if and only if there is a diagnostic. -/
theorem reports_agree (ran : runText fuel source = some results) :
    results.length = (Form.ofText source).length ∧
    ∃ diagnostics, Diagnostic.ofText fuel source = some diagnostics ∧
      List.Forall₂ (Diagnostic.Describes source) (Diagnostic.failures source results)
        diagnostics ∧
      output fuel source = some (if results = [] then "\n" else
        String.join (results.map fun r => r.result.text ++ "\n")) ∧
      ∀ o : CommandLine.Options, o.strict = true → ∃ exit,
        CommandLine.run fuel o source = some exit ∧ (exit.status = 1 ↔ diagnostics ≠ []) := by
  refine ⟨length_runText ran, results.filterMap Diagnostic.ofResult, ?_, describes_failures ran,
    output_eq_lines ran, fun o strict => status_eq_one_iff ran strict⟩
  rw [Diagnostic.ofText, ran]
  rfl

/-- Without forms, what is printed is not just the lines of all forms. -/
theorem output_of_no_forms : ∃ results, runText 0 "" = some results ∧
    output 0 "" ≠ some (String.join (results.map fun r => r.result.text ++ "\n")) := by
  have ends : (runText 0 "").map List.length = some 0 := by decide +kernel
  obtain ⟨results, ran, length⟩ := Option.map_eq_some_iff.1 ends
  cases List.length_eq_zero_iff.1 length
  exact ⟨[], ran, by decide +kernel⟩

/-- Of three forms, the second and the last fail, the last as a group that is not closed. -/
theorem reports_of_three_forms :
    ∃ results diagnostics, runText 3 "\"a\" (if)\n(f [ " = some results ∧ results.length = 3 ∧
      Diagnostic.ofText 3 "\"a\" (if)\n(f [ " = some diagnostics ∧
      diagnostics.map (·.span) = [⟨4, 8⟩, ⟨9, 13⟩] ∧
      List.Forall₂ (Diagnostic.Describes "\"a\" (if)\n(f [ ")
        (Diagnostic.failures "\"a\" (if)\n(f [ " results) diagnostics := by
  have ends : (runText 3 "\"a\" (if)\n(f [ ").isSome = true := by decide +kernel
  obtain ⟨results, ran⟩ := Option.isSome_iff_exists.1 ends
  have forms : (Form.ofText "\"a\" (if)\n(f [ ").length = 3 := by decide +kernel
  have spans : (Diagnostic.ofText 3 "\"a\" (if)\n(f [ ").map (·.map (·.span)) =
      some [⟨4, 8⟩, ⟨9, 13⟩] := by decide +kernel
  obtain ⟨length, diagnostics, diagnosed, describes, -⟩ := reports_agree ran
  rw [diagnosed, Option.map_some, Option.some.injEq] at spans
  exact ⟨results, diagnostics, ran, length.trans forms, diagnosed, spans, describes⟩

end Program

end Tyro
