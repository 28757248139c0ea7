import Tyro.Proofs.Editor.Verdict
import Tyro.Proofs.Sexp.Shift
import Tyro.Proofs.Token.Line

/-!
# Reading entries after one another

A complete entry is read as the same S-expressions whatever stands on the lines after it, and what
stands there is read as if it began the text, only further on.

* `run_blanks`: blank tokens are read as nothing where no group is open.
* `ofText_append_line`: one complete entry, a line feed and any text.
* `ofText_programOf`: complete entries, each with a line feed after it.
-/

namespace Tyro

open Token Reader

/-! ## Blanks -/

/-- Nothing is left exactly of a text of blanks. -/
theorem Text.trimChars_eq_nil_iff {cs : List Char} :
    trimChars cs = [] ↔ ∀ c ∈ cs, isBlank c = true := by
  unfold trimChars
  rw [List.reverse_eq_nil_iff, List.dropWhile_eq_nil_iff]
  constructor
  · intro all
    have front : (cs.dropWhile isBlank).head? = none := by
      have head := List.head?_dropWhile_not isBlank cs
      cases found : (cs.dropWhile isBlank).head? with
      | none => rfl
      | some c =>
        have mem := List.mem_reverse.2 (List.mem_of_mem_head? found)
        rw [found] at head
        exact absurd (all c mem) (by simp [head])
    exact List.dropWhile_eq_nil_iff.1 (List.head?_eq_none_iff.1 front)
  · intro all
    rw [List.dropWhile_eq_nil_iff.2 all]
    exact List.forall_mem_nil _

/-- Blank tokens open and close no group and complete nothing. -/
theorem Reader.feed_blanks {ts : List Token} (blanks : ∀ t ∈ ts, t.kind = .blank)
    (groups : List Group) : ((feed groups ts).1 = [] ↔ groups = []) ∧ (feed groups ts).2 = [] := by
  induction ts generalizing groups with
  | nil => exact ⟨Iff.rfl, rfl⟩
  | cons t ts ih =>
    have blank := blanks t List.mem_cons_self
    have later := ih (fun u mem => blanks u (List.mem_cons_of_mem t mem)) (step groups t).1
    cases groups with
    | nil =>
      simp only [feed, step, blank] at later ⊢
      exact later
    | cons g outer =>
      simp only [feed, step, blank] at later ⊢
      exact ⟨later.1.trans (by simp), later.2⟩

/-- Blank tokens are read as nothing where no group is open. -/
theorem Reader.run_blanks {ts : List Token} (blanks : ∀ t ∈ ts, t.kind = .blank)
    (us : List Token) : run [] (ts ++ us) = run [] us := by
  obtain ⟨closed, nothing⟩ := feed_blanks blanks []
  rw [run_append, nothing, closed.2 rfl, List.nil_append]

/-- Blank pieces are blank tokens in their places. -/
theorem Token.blank_of_mem_place {ps : List Piece} (blanks : ∀ p ∈ ps, p.kind = .blank)
    (offset : Nat) : ∀ t ∈ place offset ps, t.kind = .blank := by
  intro t mem
  obtain ⟨p, there, kind, -⟩ := exists_of_mem_place mem
  rw [kind, blanks p there]

/-- The program that entries make: each with a line feed after it. -/
def Entry.programOf (entries : List String) : String :=
  String.join (entries.map (· ++ "\n"))

/-- The program of entries begins with the first of them. -/
theorem Entry.programOf_cons (entry : String) (entries : List String) :
    programOf (entry :: entries) = entry ++ "\n" ++ programOf entries := by
  rw [programOf, List.map_cons, String.join_cons, programOf]

/-- The program of entries grows with an entry at the end. -/
theorem Entry.programOf_append_singleton (entries : List String) (entry : String) :
    programOf (entries ++ [entry]) = programOf entries ++ entry ++ "\n" := by
  rw [programOf, List.map_append, String.join_append, String.append_assoc, programOf]
  simp

/-- The bytes of the first entry, its line feed and the other entries. -/
theorem Entry.byteSize_programOf_cons (entry : String) (entries : List String) :
    Text.byteSize (programOf (entry :: entries)).toList =
      Text.byteSize entry.toList + 1 + Text.byteSize (programOf entries).toList := by
  rw [programOf_cons, String.toList_append, String.toList_append, Text.byteSize_append,
    Text.byteSize_append]
  rfl

namespace Sexp

/-! ## One entry and what follows it -/

/-- A complete entry has no token that is a double quote still open. -/
theorem not_mem_pieces_of_complete {entry : String} (complete : Entry.verdict entry = .complete) :
    ⟨.bad .unrecognized, ['\x22']⟩ ∉ pieces entry.toList := by
  intro mem
  obtain ⟨quotes, -⟩ := @Entry.closed_of_complete [] _ complete
  obtain ⟨t, there, kind, text⟩ := exists_mem_place mem 0
  rw [← scanFrom_eq_place] at there
  have lone := quotes t there
  simp [Entry.isLoneQuote, kind, text] at lone

/-- The reader has no group open after the pieces of a complete entry without blank ones at its end,
and has completed all that the entry is read as. -/
theorem feed_place_of_complete {entry : String} (complete : Entry.verdict entry = .complete)
    {ps before : List Piece} (cut : pieces entry.toList = ps ++ before)
    (blanks : ∀ p ∈ before, p.kind = .blank) :
    feed [] (place 0 ps) = ([], run [] (scan entry)) := by
  have blankTokens := blank_of_mem_place blanks (0 + Text.byteSize (ps.flatMap Piece.chars))
  have closed : (feed [] (place 0 ps)).1 = [] := by
    obtain ⟨-, closed⟩ := @Entry.closed_of_complete [] _ complete
    unfold scan at closed
    rw [scanFrom_eq_place, cut, place_append, feed_append] at closed
    exact (feed_blanks blankTokens _).1.1 closed
  have nothing := run_blanks blankTokens []
  rw [List.append_nil] at nothing
  refine Prod.ext closed ?_
  rw [scan, scanFrom_eq_place, cut, place_append, run_append, closed, nothing]
  exact (List.append_nil _).symm

/-- What follows a line end begins behind the line, the line end and the blanks around it. -/
theorem byteSize_append_line {line rest : List Char} {ps gap lead qs : List Piece}
    (joined : pieces (line ++ '\n' :: rest) = ps ++ (gap ++ qs)) (cut : pieces rest = lead ++ qs) :
    Text.byteSize (ps.flatMap Piece.chars) + Text.byteSize (gap.flatMap Piece.chars) =
      Text.byteSize line + 1 + Text.byteSize (lead.flatMap Piece.chars) := by
  have whole := congrArg Text.byteSize (flatMap_chars_pieces (line ++ '\n' :: rest))
  have later := congrArg Text.byteSize (flatMap_chars_pieces rest)
  have lineEnd : Char.utf8Size '\n' = 1 := by decide
  rw [joined] at whole
  rw [cut] at later
  simp only [List.flatMap_append, Text.byteSize_append, Text.byteSize, lineEnd] at whole later
  omega

/-- A text further on is read as its S-expressions further on. -/
theorem readAll_scanFrom (n : Nat) (source : String) :
    readAll (scanFrom n source.toList) = (ofText source).map (Located.shift n) := by
  have further := scanFrom_add 0 n source.toList
  rw [Nat.zero_add] at further
  rw [further, readAll_shift]
  rfl

/-- **Locality of entries.** A complete entry in front of a line feed is read as by itself, and what
follows is read as by itself, but for its place. -/
theorem ofText_append_line {entry : String} (complete : Entry.verdict entry = .complete)
    (rest : String) :
    ofText (entry ++ "\n" ++ rest) =
      ofText entry ++ (ofText rest).map (Located.shift (Text.byteSize entry.toList + 1)) := by
  obtain ⟨ps, before, gap, cut, joined, beforeBlank, gapBlank⟩ :=
    pieces_append_line (not_mem_pieces_of_complete complete) rest.toList
  obtain ⟨lead, leadBlank, cutRest⟩ := pieces_dropWhile_isBlank rest.toList
  have chars : (entry ++ "\n" ++ rest).toList = entry.toList ++ '\n' :: rest.toList := by
    simp only [String.toList_append, List.append_assoc]
    rfl
  have fed := feed_place_of_complete complete cut beforeBlank
  rw [← readAll_scanFrom, ofText, ofText]
  unfold readAll
  rw [scan, chars, scanFrom_eq_place, joined, place_append, run_append, fed, place_append,
    run_blanks (blank_of_mem_place gapBlank _), scanFrom_eq_place, cutRest, place_append,
    run_blanks (blank_of_mem_place leadBlank _), List.map_append, Nat.zero_add,
    byteSize_append_line joined cutRest]

/-! ## Entries -/

/-- The S-expressions of entries that begin at a byte offset, each entry on lines of its own. -/
def ofEntries (offset : Nat) : List String → List Located
  | [] => []
  | entry :: entries =>
    (ofText entry).map (Located.shift offset) ++
      ofEntries (offset + (Text.byteSize entry.toList + 1)) entries

/-- What is read from a text moves by two distances one after the other. -/
theorem map_shift_ofText (m n : Nat) (source : String) :
    ((ofText source).map (Located.shift m)).map (Located.shift n) =
      (ofText source).map (Located.shift (m + n)) := by
  have tokens (ts : List Token) :
      (ts.map (Token.shift m)).map (Token.shift n) = ts.map (Token.shift (m + n)) := by
    rw [List.map_map]
    refine List.map_congr_left fun t _ => ?_
    simp only [Function.comp_apply, Token.shift, Span.shift, Nat.add_assoc]
  rw [ofText, ← readAll_shift, ← readAll_shift, ← readAll_shift, tokens]

/-- What is read from a text stands where it stands. -/
theorem map_shift_zero_ofText (source : String) :
    (ofText source).map (Located.shift 0) = ofText source := by
  have tokens (ts : List Token) : ts.map (Token.shift 0) = ts := List.map_id ts
  rw [ofText, ← readAll_shift, tokens]

/-- Entries further on have their S-expressions further on. -/
theorem ofEntries_add (offset n : Nat) (entries : List String) :
    ofEntries (offset + n) entries = (ofEntries offset entries).map (Located.shift n) := by
  induction entries generalizing offset with
  | nil => rfl
  | cons entry entries ih =>
    rw [ofEntries, ofEntries, List.map_append, map_shift_ofText, ← ih, Nat.add_right_comm]

/-- Entries stand one list after the other. -/
theorem ofEntries_append (offset : Nat) (entries others : List String) :
    ofEntries offset (entries ++ others) = ofEntries offset entries ++
      ofEntries (offset + Text.byteSize (Entry.programOf entries).toList) others := by
  induction entries generalizing offset with
  | nil => rfl
  | cons entry entries ih =>
    rw [List.cons_append, ofEntries, ofEntries, ih, List.append_assoc, Nat.add_assoc,
      Entry.byteSize_programOf_cons]

/-- **Reading entries.** Complete entries, each with a line feed after it, are read as the
S-expressions of each, in order and in their places. -/
theorem ofText_programOf {entries : List String}
    (complete : ∀ entry ∈ entries, Entry.verdict entry = .complete) :
    ofText (Entry.programOf entries) = ofEntries 0 entries := by
  induction entries with
  | nil =>
    change readAll (scanFrom 0 []) = []
    rw [scanFrom]
    rfl
  | cons entry entries ih =>
    have first := complete entry List.mem_cons_self
    have others := ih fun other mem => complete other (List.mem_cons_of_mem entry mem)
    rw [Entry.programOf_cons, ofText_append_line first, others, ← ofEntries_add, ofEntries,
      map_shift_zero_ofText]

/-- An entry of blanks is read as nothing. -/
theorem ofText_of_blank {entry : String} (h : (Text.trim entry).isEmpty = true) :
    ofText entry = [] := by
  have blank : ∀ c ∈ entry.toList, Text.isBlank c = true := by
    rw [Text.trim, String.isEmpty_iff] at h
    exact Text.trimChars_eq_nil_iff.1 (by simpa using h)
  obtain ⟨lead, leadBlank, cut⟩ := pieces_dropWhile_isBlank entry.toList
  have nothing := run_blanks (blank_of_mem_place leadBlank 0) []
  rw [List.append_nil] at nothing
  rw [List.dropWhile_eq_nil_iff.2 blank, pieces_nil, List.append_nil] at cut
  unfold ofText readAll
  rw [scan, scanFrom_eq_place, cut, nothing]
  rfl

end Sexp

end Tyro
