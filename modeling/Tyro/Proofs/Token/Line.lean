import Tyro.Proofs.Token.Written

/-!
# Tokens at a line end

A line end separates the tokens before it from those after it. Only three things could reach over
it: a string, for which a double quote has to be open; a comment, but a line end ends it; and a run
of blanks, which may go on behind the line end but consists of blanks there too.
`pieces_append_line` says so: what follows a line end is cut as if nothing stood before it, up to
the blanks around the line end.
-/

namespace Tyro.Token

/-! ## Blank tokens -/

/-- A semicolon begins a comment, which runs up to the end of the line. -/
theorem lexeme_comment (cs : List Char) :
    lexeme ';' cs = (.blank, (cs.takeWhile (· ≠ '\n')).length) := by
  have noNumber : numberAfter? ';' cs = none := by
    unfold numberAfter?
    rw [if_neg (by decide), if_neg (by decide)]
  have noOpener : Bracket.ofOpener? ';' = none := by decide
  have noCloser : Bracket.ofCloser? ';' = none := by decide
  unfold lexeme
  simp only [noNumber, noOpener, noCloser]
  rw [if_neg (by decide), if_pos trivial]

/-- Only a semicolon and a blank character begin a blank token. -/
theorem lexeme_fst_eq_blank {c : Char} {cs : List Char} (h : (lexeme c cs).1 = .blank) :
    c = ';' ∨ Text.isBlank c = true := by
  by_cases comment : c = ';'
  · exact .inl comment
  · by_cases blank : Text.isBlank c = true
    · exact .inr blank
    · exfalso
      unfold lexeme at h
      rw [if_neg comment, if_neg blank] at h
      split at h
      · cases h
      · split at h
        · cases h
        · cases h
        · split at h
          · dsimp only at h
            split at h <;> cases h
          · split at h
            · have word := wordKind_cases (c :: cs.takeWhile isWordChar)
              rcases word with kind | kind | kind | kind <;>
                exact absurd (kind.symm.trans h) (by decide)
            · cases h

/-- A blank character makes one token with all blanks that follow it. -/
theorem pieces_of_isBlank {c : Char} (blank : Text.isBlank c = true) (cs : List Char) :
    pieces (c :: cs) =
      ⟨.blank, c :: cs.takeWhile Text.isBlank⟩ :: pieces (cs.dropWhile Text.isBlank) := by
  have run := List.prefix_iff_eq_take.1 (List.takeWhile_prefix (l := cs) Text.isBlank)
  rw [pieces_cons, lexeme_of_isBlank blank, drop_length_takeWhile, ← run]

/-- The blanks at the front of a text make blank tokens, and the rest is cut as by itself. -/
theorem pieces_dropWhile_isBlank (cs : List Char) :
    ∃ lead, (∀ p ∈ lead, p.kind = .blank) ∧
      pieces cs = lead ++ pieces (cs.dropWhile Text.isBlank) := by
  cases cs with
  | nil => exact ⟨[], nofun, rfl⟩
  | cons c cs =>
    rw [List.dropWhile_cons]
    by_cases blank : Text.isBlank c = true
    · rw [if_pos blank]
      exact ⟨[_], List.forall_mem_singleton.2 rfl, pieces_of_isBlank blank cs⟩
    · rw [if_neg blank]
      exact ⟨[], nofun, rfl⟩

/-! ## Locality at a line end -/

/-- A comment that reaches the end of a line ends there. -/
theorem pieces_comment_line {cs : List Char} (inside : '\n' ∉ cs) (rest : List Char) :
    pieces (';' :: (cs ++ '\n' :: rest)) = ⟨.blank, ';' :: cs⟩ ::
      ⟨.blank, '\n' :: rest.takeWhile Text.isBlank⟩ :: pieces (rest.dropWhile Text.isBlank) := by
  rw [pieces_cons, lexeme_comment, takeWhile_ne_append inside]
  simp [pieces_of_isBlank (c := '\n') (by decide)]

/-- Blanks that reach the end of a line go on with the line end and the blanks behind it. -/
theorem pieces_blank_line {c : Char} {cs : List Char} (blank : Text.isBlank c = true)
    (inside : ∀ d ∈ cs, Text.isBlank d = true) (rest : List Char) :
    pieces (c :: (cs ++ '\n' :: rest)) =
      ⟨.blank, c :: (cs ++ '\n' :: rest.takeWhile Text.isBlank)⟩ ::
        pieces (rest.dropWhile Text.isBlank) := by
  have lineEnd : Text.isBlank '\n' = true := by decide
  rw [pieces_of_isBlank blank, List.takeWhile_append_of_pos inside,
    List.dropWhile_append_of_pos inside, List.takeWhile_cons, List.dropWhile_cons, if_pos lineEnd,
    if_pos lineEnd]

/-- Where a blank token reaches the end of a line, the line end and blanks around it follow. -/
theorem pieces_append_line_of_blank {c : Char} {cs : List Char} (kind : (lexeme c cs).1 = .blank)
    (all : (lexeme c cs).2 = cs.length) (rest : List Char) :
    ∃ gap, (∀ p ∈ gap, p.kind = .blank) ∧
      pieces (c :: (cs ++ '\n' :: rest)) = gap ++ pieces (rest.dropWhile Text.isBlank) := by
  rcases lexeme_fst_eq_blank kind with rfl | blank
  · have inside : '\n' ∉ cs := by
      rw [lexeme_comment] at all
      intro mem
      exact absurd (length_takeWhile_ne_lt.2 mem) (by omega)
    refine ⟨[_, _], ?_, pieces_comment_line inside rest⟩
    exact List.forall_mem_cons.2 ⟨rfl, List.forall_mem_singleton.2 rfl⟩
  · have inside : ∀ d ∈ cs, Text.isBlank d = true := by
      rw [lexeme_of_isBlank blank] at all
      have same := (List.takeWhile_prefix (l := cs) Text.isBlank).eq_of_length all
      exact List.takeWhile_eq_self_iff.1 same
    exact ⟨[_], List.forall_mem_singleton.2 rfl, pieces_blank_line blank inside rest⟩

/-- A double quote that no other follows is met as a bad token. -/
theorem mem_of_lone_quote {c : Char} {cs : List Char}
    (closed : ⟨.bad .unrecognized, ['\x22']⟩ ∉ pieces (c :: cs)) (quote : c = '\x22') :
    '\x22' ∈ cs := by
  subst quote
  refine Decidable.byContradiction fun missing => closed ?_
  rw [pieces_cons, lexeme_quote, if_neg missing]
  exact List.mem_cons_self

/-- **Locality at a line end.** If no double quote is open at the end of a line, the tokens of the
line come first, up to blank ones at its end, then the line end among blank ones, and then the
tokens of the rest, up to blank ones at its beginning. -/
theorem pieces_append_line {line : List Char}
    (closed : ⟨.bad .unrecognized, ['\x22']⟩ ∉ pieces line) (rest : List Char) :
    ∃ ps before gap, pieces line = ps ++ before ∧
      pieces (line ++ '\n' :: rest) = ps ++ (gap ++ pieces (rest.dropWhile Text.isBlank)) ∧
      (∀ p ∈ before, p.kind = .blank) ∧ ∀ p ∈ gap, p.kind = .blank := by
  fun_induction pieces line with
  | case1 =>
    refine ⟨[], [], [_], rfl, pieces_of_isBlank (by decide) rest, List.forall_mem_nil _, ?_⟩
    exact List.forall_mem_singleton.2 rfl
  | case2 c cs ih =>
    rw [← pieces_cons] at closed
    by_cases ended : (lexeme c cs).1 = .blank → (lexeme c cs).2 < cs.length
    · -- the token ends before the line does, or cannot go on behind it
      have later : ⟨.bad .unrecognized, ['\x22']⟩ ∉ pieces (cs.drop (lexeme c cs).2) := by
        intro mem
        rw [pieces_cons] at closed
        exact closed (List.mem_cons_of_mem _ mem)
      obtain ⟨ps, before, gap, cut, joined, blanks⟩ := ih later
      have stops : Stops ('\n' :: rest) := stops_cons (by decide) rest
      have same := lexeme_append stops (mem_of_lone_quote closed) ended
      have le := lexeme_le c cs
      refine ⟨_ :: ps, before, gap, by rw [cut]; rfl, ?_, blanks⟩
      rw [List.cons_append, pieces_cons, same, List.take_append_of_le_length le,
        List.drop_append_of_le_length le, joined]
      rfl
    · -- a blank token reaches the end of the line
      obtain ⟨kind, reaches⟩ := Classical.not_imp.1 ended
      have all : (lexeme c cs).2 = cs.length :=
        Nat.le_antisymm (lexeme_le c cs) (Nat.le_of_not_lt reaches)
      obtain ⟨gap, gapBlank, joined⟩ := pieces_append_line_of_blank kind all rest
      refine ⟨[], _, gap, rfl, joined, ?_, gapBlank⟩
      rw [all, List.drop_length, pieces_nil]
      exact List.forall_mem_singleton.2 kind

end Tyro.Token
