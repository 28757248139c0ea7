import Tyro.Proofs.Editor.Passage
import Tyro.Proofs.Sexp.Entries
import Tyro.Proofs.Token.Ended

/-!
# What more typing can do to a verdict

A verdict on an entry is right about every longer entry (`verdict_of_more`).

A wrong entry stays wrong in the same way. The closing bracket that makes it wrong is a token of one
character, and what stands before it has ended, because no double quote before it is open; so the
longer text has the same tokens up to this bracket, in the same places (`verdict_append_of_wrong`).

An incomplete entry can be completed. An open double quote runs to the end of the text, so another
one makes a string of it (`pieces_append_quote`). Where none is open, a line end ends what the last
token may still be. Then the open brackets are closed, innermost first (`passes_closers`).
-/

namespace Tyro.Entry

open Token

variable {opened later : List Bracket} {ps : List Piece} {offset : Nat}

/-! ## A wrong entry -/

/-- Among pieces that pass in their places, no double quote is open. -/
theorem Passes.not_mem (h : Passes opened later (place offset ps)) :
    ⟨.bad .unrecognized, ['\x22']⟩ ∉ ps := by
  intro mem
  obtain ⟨t, there, kind, text⟩ := exists_mem_place mem offset
  have lone := h.closed t there
  simp [isLoneQuote, kind, text] at lone

/-- **A wrong entry stays wrong**, with the same fault in the same place. -/
theorem verdict_append_of_wrong {source : String} {fault : BracketFault}
    (h : verdict source = .wrong fault) (more : String) :
    verdict (source ++ more) = .wrong fault := by
  rw [verdict, scan, scanFrom_eq_place] at h ⊢
  obtain ⟨before, t, after, later, bracket, cut, passes, decides, kind⟩ := wrong_cases h
  obtain ⟨qs, q, rs, whole, rfl, rfl⟩ := exists_of_place_eq cut
  have closer : q.kind = .closer bracket := kind
  have mem : q ∈ pieces source.toList := by
    rw [whole]
    exact List.mem_append_right qs List.mem_cons_self
  have chars : q.chars = [bracket.closer] := IsToken.closer_inv (closer ▸ isToken_of_mem_pieces mem)
  have same : q = ⟨.closer bracket, [bracket.closer]⟩ := by rw [← closer, ← chars]
  have stays := pieces_append_of_cut whole more.toList (fun _ => passes.not_mem)
    (List.cons_ne_nil q rs) (by simp [same])
  rw [List.flatMap_cons, chars, List.append_assoc, List.singleton_append, pieces_closer,
    ← same] at stays
  rw [String.toList_append, stays, place_append, place]
  exact decides.verdictFrom_append passes _

/-! ## An incomplete entry -/

/-- Closing brackets close what is open. -/
theorem passes_closers (opened : List Bracket) (offset : Nat) :
    Passes opened [] (place offset (pieces (opened.map Bracket.closer))) := by
  induction opened generalizing offset with
  | nil =>
    rw [List.map_nil, pieces_nil, place]
    exact .nil []
  | cons bracket opened ih =>
    rw [List.map_cons, pieces_closer, place]
    exact .closer rfl (ih _)

/-- No closing bracket is blank. -/
theorem dropWhile_isBlank_closers (opened : List Bracket) :
    (opened.map Bracket.closer).dropWhile Text.isBlank = opened.map Bracket.closer := by
  cases opened with
  | nil => rfl
  | cons bracket opened =>
    rw [List.map_cons, List.dropWhile_cons_of_neg (by cases bracket <;> decide)]

/-- **An open double quote** takes all that follows it, so another one at the end makes a string of
it. -/
theorem pieces_append_quote {cs : List Char} {qs rs : List Piece}
    (cut : pieces cs = qs ++ ⟨.bad .unrecognized, ['\x22']⟩ :: rs)
    (closed : ⟨.bad .unrecognized, ['\x22']⟩ ∉ qs) (rest : List Char) :
    ∃ string : Piece, string.kind = .string ∧
      pieces (cs ++ '\x22' :: rest) = qs ++ string :: pieces rest := by
  have alone := pieces_of_cut cut
  rw [List.flatMap_cons, List.singleton_append, pieces_cons, lexeme_quote] at alone
  have missing : '\x22' ∉ rs.flatMap Piece.chars := by
    intro mem
    rw [if_pos mem] at alone
    cases congrArg Piece.kind (List.cons.inj alone).1
  have stays := pieces_append_of_cut cut ('\x22' :: rest) (fun _ => closed)
    (List.cons_ne_nil _ _) (by simp)
  refine ⟨⟨.string, '\x22' :: (rs.flatMap Piece.chars ++ ['\x22'])⟩, rfl, ?_⟩
  rw [stays, List.flatMap_cons, List.singleton_append, List.cons_append, pieces_string missing]

/-- **An incomplete entry can be completed.** -/
theorem exists_complete_of_incomplete {source : String} (h : verdict source = .incomplete) :
    ∃ more, verdict (source ++ more) = .complete := by
  rw [verdict, scan, scanFrom_eq_place] at h
  rcases incomplete_cases h with
    ⟨bracket, later, passes⟩ | ⟨before, t, after, later, cut, passes, quote⟩
  · -- brackets are open: a line end, and what closes them
    refine ⟨String.ofList ('\n' :: (bracket :: later).map Bracket.closer), ?_⟩
    obtain ⟨ps, before, gap, cut, joined, beforeBlank, gapBlank⟩ :=
      pieces_append_line passes.not_mem ((bracket :: later).map Bracket.closer)
    rw [cut, place_append] at passes
    obtain ⟨middle, first, last⟩ := passes.of_append
    obtain rfl := ((passes_iff_of_blank (blank_of_mem_place beforeBlank _)).1 last).symm
    rw [verdict, scan, scanFrom_eq_place, String.toList_append, String.toList_ofList, joined,
      dropWhile_isBlank_closers, place_append, place_append]
    have between (offset : Nat) : Passes (bracket :: later) (bracket :: later) (place offset gap) :=
      (passes_iff_of_blank (blank_of_mem_place gapBlank offset)).2 rfl
    exact verdictFrom_eq_complete_iff.2
      (first.append ((between _).append (passes_closers (bracket :: later) _)))
  · -- a double quote is open: another one, and what closes the brackets before it
    refine ⟨String.ofList ('\x22' :: later.map Bracket.closer), ?_⟩
    obtain ⟨qs, ⟨kind, chars⟩, rs, whole, rfl, rfl⟩ := exists_of_place_eq cut
    obtain rfl : kind = .bad .unrecognized := kind_of_isLoneQuote quote
    obtain rfl : chars = ['\x22'] := by
      simp only [isLoneQuote, ofPiece, Bool.and_eq_true] at quote
      have text := congrArg String.toList (of_decide_eq_true quote.2)
      rwa [String.toList_ofList] at text
    obtain ⟨string, kind, joined⟩ :=
      pieces_append_quote whole passes.not_mem (later.map Bracket.closer)
    rw [verdict, scan, scanFrom_eq_place, String.toList_append, String.toList_ofList, joined,
      place_append, place]
    have inside (t : Token) (same : t.kind = .string) (ts : List Token)
        (next : Passes later [] ts) : Passes later [] (t :: ts) :=
      .other (by simp [same]) (by simp [same]) (by simp [isLoneQuote, same]) next
    exact verdictFrom_eq_complete_iff.2
      (passes.append (inside _ kind _ (passes_closers later _)))

/-- **A verdict is right about the future.** What is wrong stays wrong in the same way, however the
entry goes on, and what is incomplete can be completed. -/
theorem verdict_of_more (source : String) :
    (∀ fault, verdict source = .wrong fault →
      ∀ more, verdict (source ++ more) = .wrong fault) ∧
    (verdict source = .incomplete → ∃ more, verdict (source ++ more) = .complete) :=
  ⟨fun _ h more => verdict_append_of_wrong h more, exists_complete_of_incomplete⟩

/-- A bracket in a comment closes nothing, so there is more to type; a crossed bracket is for
good. -/
theorem verdict_of_more_of_groups :
    verdict "(a (b ; c)" = .incomplete ∧ (∃ more, verdict ("(a (b ; c)" ++ more) = .complete) ∧
      verdict "(a \"(\"] \"b" = .wrong (.crossed .square .round 6) ∧
      ∀ more, verdict ("(a \"(\"] \"b" ++ more) = .wrong (.crossed .square .round 6) := by
  have waits : verdict "(a (b ; c)" = .incomplete := by decide +kernel
  have wrong : verdict "(a \"(\"] \"b" = .wrong (.crossed .square .round 6) := by decide +kernel
  exact ⟨waits, (verdict_of_more _).2 waits, wrong, (verdict_of_more _).1 _ wrong⟩

end Tyro.Entry
