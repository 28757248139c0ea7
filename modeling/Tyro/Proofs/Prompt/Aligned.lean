import Tyro.Proofs.Program.Moments
import Tyro.Proofs.Sexp.Entries
import Tyro.Prompt.Basic

/-!
# Forms and results of a session

A session runs the program of all its entries again and again, and shows only the results behind as
many as it has shown before. `Aligned` is the invariant by which these are the results of the entry
that is new.

* `Program.runText_eq_some_iff` says that a text has one result for each of its forms, in order.
* `Aligned.submit` is one entry: what is shown for it, and that the session stays aligned.
* `Aligned.takeAll` is a sequence of entries, and `Aligned.feed` is any line that is typed.

`Prompt.entries_stay_aligned` puts the reading of entries and the session together.
-/

namespace Tyro

/-! ## Results of a text -/

/-- The forms of S-expressions. -/
def Form.ofData (data : List Sexp.Located) : List Form := data.map fun d => ofSexp d.sexp

namespace Program

/-- Results, each at the place of the S-expression that it belongs to. -/
def locate (results : List FormResult) (data : List Sexp.Located) : List LocatedResult :=
  (results.zip (data.map (·.span))).map fun (result, span) => ⟨result, span⟩

/-- Two lists of results are located one after the other. -/
theorem locate_append {results : List FormResult} {data : List Sexp.Located}
    (length : results.length = data.length) (others : List FormResult)
    (further : List Sexp.Located) :
    locate (results ++ others) (data ++ further) =
      locate results data ++ locate others further := by
  unfold locate
  rw [List.map_append, List.zip_append (by rw [List.length_map, length]), List.map_append]

/-- There are as many located results as there are results. -/
theorem length_locate {results : List FormResult} {data : List Sexp.Located}
    (length : results.length = data.length) : (locate results data).length = data.length := by
  unfold locate
  rw [List.length_map, List.length_zip, List.length_map, length, Nat.min_self]

/-- Every form of a program has its result. -/
theorem length_run {fuel : Nat} {forms : List Form} {results : List FormResult} {s : Store}
    (h : run fuel forms = some (results, s)) : results.length = forms.length := by
  obtain ⟨⟨results', last⟩, ran, built⟩ := Option.bind_eq_some_iff.1 h
  cases built
  obtain ⟨pendings, passed, settled⟩ := Store.run_eq_some_iff.1 ran
  rw [Store.length_settle settled, Store.length_runForms passed]

/-- The results of a text are those of its forms, in order and in their places. -/
theorem runText_eq_some_iff {fuel : Nat} {source : String} {results : List LocatedResult} :
    runText fuel source = some results ↔
      ∃ rs s, run fuel (Form.ofData (Sexp.ofText source)) = some (rs, s) ∧
        results = locate rs (Sexp.ofText source) := by
  constructor
  · intro h
    obtain ⟨⟨rs, s⟩, ran, built⟩ := Option.bind_eq_some_iff.1 h
    cases built
    exact ⟨rs, s, ran, rfl⟩
  · rintro ⟨rs, s, ran, rfl⟩
    exact Option.bind_eq_some_iff.2 ⟨(rs, s), ran, rfl⟩

end Program

/-- Just the failures have a diagnostic. -/
theorem Diagnostic.isSome_ofResult (r : LocatedResult) :
    (ofResult r).isSome = r.result.isFailure := by
  obtain ⟨result, span⟩ := r
  cases result with
  | check c => cases c <;> rfl
  | _ => rfl

namespace Prompt

variable {fuel : Nat}

/-! ## Sessions -/

/-- The session after entries were taken one after the other, if it still goes on. -/
def takeAll (p : Prompt) (fuel : Nat) : List String → Option Prompt
  | [] => some p
  | entry :: entries => do
    match (← p.submit fuel entry).next with
    | .wait p => p.takeAll fuel entries
    | _ => none

/-- The entries that are not blank, which are those that become part of the program. -/
def kept (entries : List String) : List String :=
  entries.filter fun entry => !(Text.trim entry).isEmpty

/-- The S-expressions of an entry where it stands behind the program of the session. -/
def arriving (p : Prompt) (entry : String) : List Sexp.Located :=
  (Sexp.ofText entry).map (Sexp.Located.shift (Text.byteSize p.program.toList))

/-- The step that shows results: a line for each that does not fail, a diagnostic for each that
does. -/
def Step.showing (results : List LocatedResult) (next : Next) : Step :=
  ⟨String.join ((results.filter fun r => !r.result.isFailure).map fun r => r.result.text ++ "\n"),
    results.filterMap Diagnostic.ofResult, next⟩

/-- The program of a session is that of the entries, it has run, and as many results have been shown
as it has forms. -/
structure Aligned (fuel : Nat) (entries : List String) (p : Prompt) : Prop where
  complete : ∀ entry ∈ entries, Entry.verdict entry = .complete
  program : p.program = Entry.programOf entries
  shown : p.shown = (Sexp.ofEntries 0 entries).length
  ran : ∃ results s,
    Program.run fuel (Form.ofData (Sexp.ofEntries 0 entries)) = some (results, s)

/-- A session without entries is aligned. -/
theorem aligned_start (fuel : Nat) : Aligned fuel [] start :=
  ⟨List.forall_mem_nil _, rfl, rfl, ⟨_, _, rfl⟩⟩

/-- The results of the program of entries are those of all entries but the last, in their places,
and then those of the last one, in theirs. -/
theorem runText_programOf_concat {entries : List String} {entry : String}
    (complete : ∀ other ∈ entries ++ [entry], Entry.verdict other = .complete)
    {results : List LocatedResult}
    (h : Program.runText fuel (Entry.programOf (entries ++ [entry])) = some results) :
    ∃ old new s,
      Program.run fuel (Form.ofData (Sexp.ofEntries 0 (entries ++ [entry]))) =
        some (old ++ new, s) ∧
      old.length = (Sexp.ofEntries 0 entries).length ∧ new.length = (Sexp.ofText entry).length ∧
      results = Program.locate old (Sexp.ofEntries 0 entries) ++
        Program.locate new ((Sexp.ofText entry).map
          (Sexp.Located.shift (Text.byteSize (Entry.programOf entries).toList))) := by
  obtain ⟨rs, s, ran, rfl⟩ := Program.runText_eq_some_iff.1 h
  have length := Program.length_run ran
  have split := Sexp.ofEntries_append 0 entries [entry]
  rw [Sexp.ofEntries, Sexp.ofEntries, List.append_nil, Nat.zero_add] at split
  rw [Sexp.ofText_programOf complete] at ran length ⊢
  rw [Form.ofData, List.length_map, split, List.length_append, List.length_map] at length
  have cut := List.take_append_drop (Sexp.ofEntries 0 entries).length rs
  have old : (rs.take (Sexp.ofEntries 0 entries).length).length =
      (Sexp.ofEntries 0 entries).length := by
    rw [List.length_take]
    omega
  have new : (rs.drop (Sexp.ofEntries 0 entries).length).length =
      (Sexp.ofText entry).length := by
    rw [List.length_drop]
    omega
  refine ⟨_, _, s, cut.symm ▸ ran, old, new, ?_⟩
  rw [split, ← Program.locate_append old, cut]

/-- **One entry.** Where the session goes on after a complete entry, the program has run with the
forms of the entry behind all others. The results of the others are skipped, those of the entry are
shown in their places, and the session stays aligned. -/
theorem Aligned.submit {entries : List String} {p : Prompt} (a : Aligned fuel entries p)
    {entry : String} (complete : Entry.verdict entry = .complete) {step : Step}
    (h : p.submit fuel entry = some step) (goesOn : step.next ≠ .leave) :
    ∃ old new s,
      Program.run fuel (Form.ofData (Sexp.ofEntries 0 (entries ++ kept [entry]))) =
        some (old ++ new, s) ∧
      old.length = p.shown ∧ new.length = (Sexp.ofText entry).length ∧
      step = .showing (Program.locate new (p.arriving entry))
        (.wait ⟨Entry.programOf (entries ++ kept [entry]), p.shown + new.length, ""⟩) ∧
      Aligned fuel (entries ++ kept [entry])
        ⟨Entry.programOf (entries ++ kept [entry]), p.shown + new.length, ""⟩ := by
  obtain ⟨completes, program, shown, results, s, ran⟩ := a
  unfold Prompt.submit at h
  by_cases blank : (Text.trim entry).isEmpty = true
  · rw [if_pos blank] at h
    cases h
    have notKept : kept [entry] = [] := by simp [kept, blank]
    rw [notKept, List.append_nil, arriving, Sexp.ofText_of_blank blank]
    refine ⟨results, [], s, ?_, ?_, rfl, ?_, ⟨completes, rfl, shown, results, s, ran⟩⟩
    · rw [List.append_nil]
      exact ran
    · rw [Program.length_run ran, Form.ofData, List.length_map, shown]
    · rw [← program]
      rfl
  · rw [if_neg blank] at h
    by_cases exit : isExit entry = true
    · rw [if_pos exit] at h
      cases h
      exact absurd rfl goesOn
    · rw [if_neg exit] at h
      obtain ⟨located, ranText, built⟩ := Option.bind_eq_some_iff.1 h
      cases built
      have one : kept [entry] = [entry] := by simp [kept, blank]
      have all : ∀ other ∈ entries ++ [entry], Entry.verdict other = .complete :=
        List.forall_mem_append.2 ⟨completes, List.forall_mem_singleton.2 complete⟩
      rw [program, ← Entry.programOf_append_singleton] at ranText
      obtain ⟨old, new, s, ran, oldLength, newLength, rfl⟩ := runText_programOf_concat all ranText
      have skipped : (Program.locate old (Sexp.ofEntries 0 entries)).length = p.shown := by
        rw [Program.length_locate oldLength, shown]
      have fresh : new.length = ((Sexp.ofText entry).map (Sexp.Located.shift
          (Text.byteSize (Entry.programOf entries).toList))).length := by
        rw [newLength, List.length_map]
      have total := (Program.length_locate fresh).trans fresh.symm
      have text : p.program ++ entry ++ "\n" = Entry.programOf (entries ++ [entry]) := by
        rw [program, Entry.programOf_append_singleton]
      rw [one, List.length_append, skipped, total, List.drop_left' skipped, text, arriving,
        program]
      have forms := Program.length_run ran
      rw [Form.ofData, List.length_map, List.length_append, oldLength, ← shown] at forms
      refine ⟨old, new, s, ran, oldLength.trans shown.symm, newLength, rfl, ?_⟩
      exact ⟨all, rfl, forms, _, _, ran⟩

/-- Entries are kept one list after the other. -/
theorem kept_cons (entry : String) (entries : List String) :
    kept (entry :: entries) = kept [entry] ++ kept entries :=
  List.filter_append [entry] entries

/-- **Any entries.** The session stays aligned while complete entries are taken. -/
theorem Aligned.takeAll {entries more : List String} {p q : Prompt} (a : Aligned fuel entries p)
    (complete : ∀ entry ∈ more, Entry.verdict entry = .complete)
    (h : p.takeAll fuel more = some q) : Aligned fuel (entries ++ kept more) q := by
  induction more generalizing entries p with
  | nil =>
    cases h
    rw [kept, List.filter_nil, List.append_nil]
    exact a
  | cons entry more ih =>
    obtain ⟨step, submitted, h⟩ := Option.bind_eq_some_iff.1 h
    have one := complete entry List.mem_cons_self
    have others := fun other mem => complete other (List.mem_cons_of_mem entry mem)
    cases next : step.next with
    | leave => rw [next] at h; cases h
    | breakOff => rw [next] at h; cases h
    | wait p' =>
      rw [next] at h
      have goesOn : step.next ≠ .leave := by rw [next]; nofun
      obtain ⟨old, new, s, -, -, -, rfl, later⟩ := a.submit one submitted goesOn
      cases next
      rw [kept_cons, ← List.append_assoc]
      exact ih later others h

/-- **Any line.** The session stays aligned when a line is typed, however it is edited: it takes an
entry only if the entry is complete. -/
theorem Aligned.feed {entries : List String} {p q : Prompt} (a : Aligned fuel entries p)
    {edit : Editing} {line : String} {step : Step} (h : p.feed edit fuel line = some step)
    (next : step.next = .wait q) : ∃ more, Aligned fuel (entries ++ more) q := by
  have same (entry : String) (kept : q = { p with entry := entry }) :
      ∃ more, Aligned fuel (entries ++ more) q := by
    subst kept
    exact ⟨[], by rw [List.append_nil]; exact ⟨a.complete, a.program, a.shown, a.ran⟩⟩
  unfold Prompt.feed at h
  dsimp only at h
  split at h
  · cases h
    cases next
  · next typed _ =>
    split at h
    · next complete =>
      have goesOn : step.next ≠ .leave := by rw [next]; nofun
      obtain ⟨old, new, s, -, -, -, rfl, later⟩ := a.submit complete h goesOn
      cases next
      exact ⟨_, later⟩
    · cases h
      cases next
      exact same _ rfl
    · cases h
      cases next
      exact same _ rfl

/-- The S-expressions of entries and those of one more, which has none if it is blank. -/
theorem ofEntries_concat_kept (entries : List String) (entry : String) :
    Sexp.ofEntries 0 (entries ++ kept [entry]) = Sexp.ofEntries 0 entries ++
      (Sexp.ofText entry).map
        (Sexp.Located.shift (Text.byteSize (Entry.programOf entries).toList)) := by
  by_cases blank : (Text.trim entry).isEmpty = true
  · have notKept : kept [entry] = [] := by simp [kept, blank]
    rw [notKept, Sexp.ofText_of_blank blank, List.append_nil, List.map_nil, List.append_nil]
  · have one : kept [entry] = [entry] := by simp [kept, blank]
    rw [one, Sexp.ofEntries_append, Sexp.ofEntries, Sexp.ofEntries, List.append_nil, Nat.zero_add]

/-- Each result that is shown has a line or a diagnostic, and just one of them. -/
theorem length_showing (results : List FormResult) (data : List Sexp.Located)
    (length : results.length = data.length) :
    (results.filter fun r => !r.isFailure).length +
      ((Program.locate results data).filterMap Diagnostic.ofResult).length = results.length := by
  induction results generalizing data with
  | nil => rfl
  | cons r results ih =>
    cases data with
    | nil => cases length
    | cons d data =>
      have later := ih data (Nat.succ.inj length)
      have head : Program.locate (r :: results) (d :: data) =
          ⟨r, d.span⟩ :: Program.locate results data := rfl
      have reported := Diagnostic.isSome_ofResult ⟨r, d.span⟩
      rw [head, List.filterMap_cons, List.length_cons]
      cases diagnostic : Diagnostic.ofResult ⟨r, d.span⟩ with
      | none =>
        rw [diagnostic] at reported
        rw [List.filter_cons_of_pos (by simp [← reported]), List.length_cons]
        dsimp only
        omega
      | some found =>
        rw [diagnostic] at reported
        rw [List.filter_cons_of_neg (by simp [← reported])]
        dsimp only
        rw [List.length_cons]
        omega

/-- **Entries and results stay aligned.** Complete entries, each with a line feed after it, are read
as the S-expressions of each entry, in order and in their places.

So when a session has taken complete entries and takes one more, it runs the forms of all entries
before with those of the new one behind them. The results that it skips are as many as the forms of
the entries before. The results that it shows are as many as the forms of the new entry, each in its
place, and for each there is a line or a diagnostic. -/
theorem entries_stay_aligned {entries : List String}
    (complete : ∀ entry ∈ entries, Entry.verdict entry = .complete) :
    Sexp.ofText (Entry.programOf entries) = Sexp.ofEntries 0 entries ∧
      ∀ {fuel : Nat} {p : Prompt}, start.takeAll fuel entries = some p →
        p.program = Entry.programOf (kept entries) ∧
        p.shown = (Sexp.ofEntries 0 (kept entries)).length ∧
        ∀ {entry : String} {step : Step}, Entry.verdict entry = .complete →
          p.submit fuel entry = some step → step.next ≠ .leave →
          ∃ old new s,
            Program.run fuel (Form.ofData (Sexp.ofEntries 0 (kept entries)) ++
              Form.ofData (p.arriving entry)) = some (old ++ new, s) ∧
            old.length = p.shown ∧ new.length = (Sexp.ofText entry).length ∧
            step = .showing (Program.locate new (p.arriving entry))
              (.wait ⟨Entry.programOf (kept (entries ++ [entry])), p.shown + new.length, ""⟩) ∧
            (new.filter fun r => !r.isFailure).length + step.reports.length = new.length := by
  refine ⟨Sexp.ofText_programOf complete, ?_⟩
  intro fuel p taken
  have a := (aligned_start fuel).takeAll complete taken
  rw [List.nil_append] at a
  refine ⟨a.program, a.shown, ?_⟩
  intro entry step one submitted goesOn
  obtain ⟨old, new, s, ran, oldLength, newLength, rfl, -⟩ := a.submit one submitted goesOn
  have keeps : kept (entries ++ [entry]) = kept entries ++ kept [entry] :=
    List.filter_append entries [entry]
  rw [ofEntries_concat_kept, ← a.program, Form.ofData, List.map_append] at ran
  refine ⟨old, new, s, ran, oldLength, newLength, by rw [keeps], ?_⟩
  exact length_showing new _ (by rw [newLength, arriving, List.length_map])

/-- Three forms have been shown, one with a comment after it and one of a bad token, when an entry
of three more comes: two lines and a diagnostic are shown for it. -/
theorem entries_stay_aligned_after_three_forms :
    ∃ p step, start.takeAll 3 ["(define (f x) (g x)) ; later", " ", "\"a\" #b"] = some p ∧
      p.submit 3 "(define (g x) x)\n(f \"c\") (h)" = some step ∧ p.shown = 3 ∧
      step.shows = "Defined (g x) to be x.\n\"c\"\n" ∧
      ∃ old new s,
        Program.run 3 (Form.ofData (Sexp.ofEntries 0
            ["(define (f x) (g x)) ; later", "\"a\" #b"]) ++
          Form.ofData (p.arriving "(define (g x) x)\n(f \"c\") (h)")) = some (old ++ new, s) ∧
        old.length = 3 ∧ new.length = 3 ∧ step.reports.length = 1 := by
  have complete : ∀ entry ∈ ["(define (f x) (g x)) ; later", " ", "\"a\" #b"],
      Entry.verdict entry = .complete := by decide +kernel
  have session : ((start.takeAll 3 ["(define (f x) (g x)) ; later", " ", "\"a\" #b"]).bind fun p =>
      (p.submit 3 "(define (g x) x)\n(f \"c\") (h)").bind fun step =>
        match step.next with
        | .wait _ => some (p.shown, step.shows, step.reports.length)
        | _ => none) = some (3, "Defined (g x) to be x.\n\"c\"\n", 1) := by decide +kernel
  obtain ⟨p, taken, session⟩ := Option.bind_eq_some_iff.1 session
  obtain ⟨step, submitted, session⟩ := Option.bind_eq_some_iff.1 session
  cases next : step.next with
  | leave => rw [next] at session; cases session
  | breakOff => rw [next] at session; cases session
  | wait q =>
    rw [next] at session
    simp only [Option.some.injEq, Prod.mk.injEq] at session
    obtain ⟨shown, shows, diagnostics⟩ := session
    obtain ⟨-, -, reports⟩ := (entries_stay_aligned complete).2 taken
    obtain ⟨old, new, s, ran, oldLength, newLength, -, -⟩ :=
      reports (by decide +kernel) submitted (by rw [next]; nofun)
    have all : kept ["(define (f x) (g x)) ; later", " ", "\"a\" #b"] =
        ["(define (f x) (g x)) ; later", "\"a\" #b"] := by decide +kernel
    have forms : (Sexp.ofText "(define (g x) x)\n(f \"c\") (h)").length = 3 := by decide +kernel
    rw [all] at ran
    exact ⟨p, step, taken, submitted, shown, shows, old, new, s, ran, oldLength.trans shown,
      newLength.trans forms, diagnostics⟩

end Prompt

end Tyro
