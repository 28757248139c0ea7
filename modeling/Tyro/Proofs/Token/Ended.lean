import Tyro.Proofs.Token.Line

/-!
# Tokens that have ended

A token that ends before the text does stays what it is when the text goes on. There are two
exceptions: a double quote that no other follows becomes a string once one does, and a number with
a point as the only character behind it goes on with the digits after the point.

* `lexeme_append_of_lt` says this of one token.
* `pieces_append_of_cut` says it of all tokens of a text before some place.
* `pieces_between` says that tokens which stand together are cut as by themselves.
* `exists_of_place_append` carries a cut through tokens back to the pieces that they were placed
  from.
-/

namespace Tyro.Token

/-! ## One token -/

/-- A number that has ended before the end of a text goes on no further, unless a point is all that
follows it. -/
theorem digitsAfter_append_of_lt {cs : List Char} (ended : digitsAfter cs < cs.length)
    (point : cs.drop (digitsAfter cs) ≠ ['.']) (rest : List Char) :
    digitsAfter (cs ++ rest) = digitsAfter cs := by
  have whole := List.takeWhile_append_dropWhile (p := Char.isDigit) (l := cs)
  have length := congrArg List.length whole
  rw [List.length_append] at length
  rw [digitsAfter_eq] at ended point
  rw [← List.drop_drop, drop_length_takeWhile] at point
  have inside : (cs.takeWhile Char.isDigit).length < cs.length := by omega
  have left : (cs ++ rest).dropWhile Char.isDigit = cs.dropWhile Char.isDigit ++ rest := by
    rw [← drop_length_takeWhile, takeWhile_append_of_lt inside,
      List.drop_append_of_le_length (Nat.le_of_lt inside), drop_length_takeWhile]
  rw [digitsAfter_eq, digitsAfter_eq, takeWhile_append_of_lt inside, left]
  congr 1
  generalize cs.dropWhile Char.isDigit = after at ended point length ⊢
  rcases after with _ | ⟨d, _ | ⟨e, more⟩⟩
  · rw [List.length_nil] at length
    omega
  · -- one character stands after the digits, and it is no point
    have other : d ≠ '.' := by
      rintro rfl
      exact point rfl
    rw [fractionAfter_of_ne other]
    exact fractionAfter_of_ne other rest
  · by_cases dot : d = '.'
    · subst dot
      by_cases digit : e.isDigit = true
      · have run : (more.takeWhile Char.isDigit).length < more.length := by
          simp only [fractionAfter, if_pos digit, List.length_cons] at ended length
          omega
        simp only [List.cons_append, fractionAfter, if_pos digit, takeWhile_append_of_lt run]
      · simp only [List.cons_append, fractionAfter, if_neg digit]
    · rw [fractionAfter_of_ne dot]
      exact fractionAfter_of_ne dot (e :: more ++ rest)

/-- A number that has ended before the end of a text is the same in front of anything, unless a
point is all that follows it. -/
theorem numberAfter?_append_of_lt {c : Char} {cs : List Char} {n : Nat}
    (h : numberAfter? c cs = some n) (ended : n < cs.length) (point : cs.drop n ≠ ['.'])
    (rest : List Char) : numberAfter? c (cs ++ rest) = some n := by
  unfold numberAfter? at h ⊢
  by_cases digit : c.isDigit = true
  · rw [if_pos digit] at h ⊢
    cases h
    rw [digitsAfter_append_of_lt ended point]
  · rw [if_neg digit] at h ⊢
    by_cases minus : c = '-'
    · rw [if_pos minus] at h ⊢
      rcases cs with _ | ⟨d, cs⟩
      · cases h
      · by_cases first : d.isDigit = true
        · simp only [first, if_true, Option.some.injEq] at h
          subst h
          rw [Nat.add_comm, List.drop_succ_cons] at point
          rw [List.length_cons] at ended
          simp only [List.cons_append, first, if_true,
            digitsAfter_append_of_lt (by omega) point]
        · simp [first] at h
    · rw [if_neg minus] at h
      cases h

/-- Where no number begins, none begins when the text goes on, unless the text is a minus sign. -/
theorem numberAfter?_append_eq_none {c : Char} {cs : List Char} (h : numberAfter? c cs = none)
    (nonempty : cs ≠ []) (rest : List Char) : numberAfter? c (cs ++ rest) = none := by
  unfold numberAfter? at h ⊢
  by_cases digit : c.isDigit = true
  · rw [if_pos digit] at h
    cases h
  · rw [if_neg digit] at h ⊢
    by_cases minus : c = '-'
    · rw [if_pos minus] at h ⊢
      rcases cs with _ | ⟨d, cs⟩
      · exact absurd rfl nonempty
      · by_cases first : d.isDigit = true
        · simp [first] at h
        · simp [first]
    · rw [if_neg minus]

/-- **A token that has ended** before the end of a text is the same in front of anything, unless it
is a double quote that is still open and another one comes, or a point is all that follows it. -/
theorem lexeme_append_of_lt {c : Char} {cs rest : List Char}
    (closed : c = '\x22' → '\x22' ∈ rest → '\x22' ∈ cs) (ended : (lexeme c cs).2 < cs.length)
    (point : cs.drop (lexeme c cs).2 ≠ ['.']) : lexeme c (cs ++ rest) = lexeme c cs := by
  have nonempty : cs ≠ [] := List.ne_nil_of_length_pos (Nat.zero_lt_of_lt ended)
  cases number : numberAfter? c cs with
  | some n =>
    have whole : lexeme c cs = (.number, n) := by simp only [lexeme, number]
    rw [whole] at ended point ⊢
    have longer := numberAfter?_append_of_lt number ended point rest
    simp only [lexeme, longer]
  | none =>
    have longer := numberAfter?_append_eq_none number nonempty rest
    unfold lexeme at ended ⊢
    simp only [number] at ended
    simp only [number, longer]
    split
    · rfl
    · rfl
    · next noOpener noCloser =>
      simp only [noOpener, noCloser] at ended
      by_cases quote : c = '\x22'
      · rw [if_pos quote, if_pos quote]
        by_cases more : '\x22' ∈ cs
        · have inside := length_takeWhile_ne_lt.2 more
          rw [takeWhile_append_of_lt inside]
          simp only [inside, if_true, List.length_append]
          rw [if_pos (by omega)]
        · -- no double quote comes, so this one stays open
          have noQuote : '\x22' ∉ cs ++ rest := by
            intro mem
            exact more ((List.mem_append.1 mem).elim id (closed quote))
          rw [if_neg (mt length_takeWhile_ne_lt.1 more),
            if_neg (mt length_takeWhile_ne_lt.1 noQuote)]
      · rw [if_neg quote] at ended
        rw [if_neg quote, if_neg quote]
        by_cases comment : c = ';'
        · rw [if_pos comment] at ended
          rw [if_pos comment, if_pos comment, takeWhile_append_of_lt ended]
        · rw [if_neg comment] at ended
          rw [if_neg comment, if_neg comment]
          by_cases blank : Text.isBlank c = true
          · rw [if_pos blank] at ended
            rw [if_pos blank, if_pos blank, takeWhile_append_of_lt ended]
          · rw [if_neg blank] at ended
            rw [if_neg blank, if_neg blank]
            by_cases word : isWordChar c = true
            · rw [if_pos word] at ended
              rw [if_pos word, if_pos word, takeWhile_append_of_lt ended]
            · rw [if_neg word, if_neg word]

/-! ## All tokens before a place -/

/-- What follows the first pieces of a text is cut as by itself. -/
theorem pieces_of_cut {cs : List Char} {ps qs : List Piece} (cut : pieces cs = ps ++ qs) :
    pieces (qs.flatMap Piece.chars) = qs := by
  induction ps generalizing cs with
  | nil =>
    rw [List.nil_append] at cut
    rw [← cut, flatMap_chars_pieces]
  | cons p ps ih =>
    cases cs with
    | nil =>
      rw [pieces_nil] at cut
      cases cut
    | cons c cs =>
      rw [pieces_cons, List.cons_append] at cut
      exact ih (List.cons.inj cut).2

/-- The first pieces of a text are cut as by themselves in front of the rest of the text, wherever
the rest is cut off. -/
theorem pieces_append_of_prefix {cs front : List Char} {ps qs : List Piece}
    (cut : pieces cs = ps ++ qs) (isFront : front <+: qs.flatMap Piece.chars) :
    pieces (ps.flatMap Piece.chars ++ front) = ps ++ pieces front := by
  induction ps generalizing cs with
  | nil => rfl
  | cons p ps ih =>
    cases cs with
    | nil =>
      rw [pieces_nil] at cut
      cases cut
    | cons c cs =>
      rw [pieces_cons, List.cons_append] at cut
      obtain ⟨rfl, others⟩ := List.cons.inj cut
      have later := ih others
      have rest := flatMap_chars_pieces (cs.drop (lexeme c cs).2)
      rw [others, List.flatMap_append] at rest
      obtain ⟨behind, rest'⟩ := isFront
      rw [← rest', ← List.append_assoc] at rest
      -- the token, the pieces after it and the cut-off text are the front of the text
      generalize more : ps.flatMap Piece.chars ++ front = ds at rest later
      have whole : cs.take ((lexeme c cs).2 + ds.length) = cs.take (lexeme c cs).2 ++ ds := by
        rw [List.take_add, ← rest, List.take_left]
      have same := lexeme_take (Nat.le_add_right (lexeme c cs).2 ds.length)
      rw [List.flatMap_cons, List.cons_append, List.cons_append, List.append_assoc, more, ← whole,
        pieces_cons, same, List.take_take, Nat.min_eq_left (Nat.le_add_right ..), List.drop_take,
        Nat.add_sub_cancel_left, ← rest, List.take_left, later]
      rfl

/-- The first pieces of a text are cut as by themselves. -/
theorem pieces_front_of_cut {cs : List Char} {ps qs : List Piece} (cut : pieces cs = ps ++ qs) :
    pieces (ps.flatMap Piece.chars) = ps := by
  have alone := pieces_append_of_prefix cut (List.nil_prefix)
  rwa [List.append_nil, pieces_nil, List.append_nil] at alone

/-- Pieces that stand together in a text are cut as by themselves. -/
theorem pieces_between {cs : List Char} {ps qs rs : List Piece}
    (cut : pieces cs = ps ++ (qs ++ rs)) : pieces (qs.flatMap Piece.chars) = qs :=
  pieces_front_of_cut (pieces_of_cut cut)

/-- A lone point is one piece. -/
theorem pieces_point : pieces ['.'] = [⟨.bad .loneDot, ['.']⟩] :=
  isToken_iff.1 (show IsToken (.bad .loneDot) ['.'] by decide)

/-- **Tokens that have ended stay.** If a text goes on behind its first tokens, with more than a
point, they are the first ones of every longer text, unless a double quote among them is open and
another one comes. -/
theorem pieces_append_of_cut {cs : List Char} {ps qs : List Piece} (cut : pieces cs = ps ++ qs)
    (rest : List Char) (closed : '\x22' ∈ rest → ⟨.bad .unrecognized, ['\x22']⟩ ∉ ps)
    (nonempty : qs ≠ []) (point : qs ≠ [⟨.bad .loneDot, ['.']⟩]) :
    pieces (cs ++ rest) = ps ++ pieces (qs.flatMap Piece.chars ++ rest) := by
  induction ps generalizing cs with
  | nil =>
    rw [List.nil_append] at cut
    rw [List.nil_append, ← cut, flatMap_chars_pieces]
  | cons p ps ih =>
    cases cs with
    | nil =>
      rw [pieces_nil] at cut
      cases cut
    | cons c cs =>
      rw [pieces_cons, List.cons_append] at cut
      obtain ⟨first, cut⟩ := List.cons.inj cut
      have quote : c = '\x22' → '\x22' ∈ rest → '\x22' ∈ cs := by
        rintro rfl comes
        refine Decidable.byContradiction fun missing => closed comes ?_
        rw [← first, lexeme_quote, if_neg missing]
        exact List.mem_cons_self
      have ended : (lexeme c cs).2 < cs.length := by
        refine Nat.lt_of_not_le fun reaches => ?_
        rw [List.drop_eq_nil_of_le reaches, pieces_nil] at cut
        exact nonempty (List.append_eq_nil_iff.1 cut.symm).2
      have dot : cs.drop (lexeme c cs).2 ≠ ['.'] := by
        intro alone
        rw [alone, pieces_point] at cut
        rcases List.append_eq_singleton_iff.1 cut.symm with ⟨-, same⟩ | ⟨-, empty⟩
        · exact point same
        · exact nonempty empty
      have later := ih cut fun comes mem => closed comes (List.mem_cons_of_mem p mem)
      rw [List.cons_append, pieces_cons, lexeme_append_of_lt quote ended dot,
        List.take_append_of_le_length (Nat.le_of_lt ended),
        List.drop_append_of_le_length (Nat.le_of_lt ended), first, later]
      rfl

/-- Tokens in their places, cut in two, are the pieces cut in two. -/
theorem exists_of_place_append {offset : Nat} {ps : List Piece} {before after : List Token}
    (h : place offset ps = before ++ after) :
    ∃ qs rs, ps = qs ++ rs ∧ before = place offset qs ∧
      after = place (offset + Text.byteSize (qs.flatMap Piece.chars)) rs := by
  induction before generalizing offset ps with
  | nil => exact ⟨[], ps, rfl, rfl, h.symm⟩
  | cons first before ih =>
    cases ps with
    | nil => cases h
    | cons p ps =>
      rw [place, List.cons_append] at h
      obtain ⟨rfl, later⟩ := List.cons.inj h
      obtain ⟨qs, rs, rfl, rfl, rfl⟩ := ih later
      refine ⟨p :: qs, rs, rfl, rfl, ?_⟩
      rw [List.flatMap_cons, Text.byteSize_append, Nat.add_assoc]

/-- A token among tokens in their places is one of the pieces. -/
theorem exists_of_place_eq {offset : Nat} {ps : List Piece} {before after : List Token} {t : Token}
    (h : place offset ps = before ++ t :: after) :
    ∃ qs p rs, ps = qs ++ p :: rs ∧ before = place offset qs ∧
      t = ofPiece (offset + Text.byteSize (qs.flatMap Piece.chars)) p := by
  obtain ⟨qs, rs, rfl, rfl, later⟩ := exists_of_place_append h
  cases rs with
  | nil => cases later
  | cons p rs => exact ⟨qs, p, rs, rfl, rfl, (List.cons.inj later).1⟩

/-- One token is one piece in its place. -/
theorem exists_of_place_singleton {n : Nat} {ps : List Piece} {t : Token} (h : [t] = place n ps) :
    ∃ p, ps = [p] ∧ t = ofPiece n p := by
  cases ps with
  | nil => cases h
  | cons p more =>
    cases more with
    | nil => exact ⟨p, rfl, (List.cons.inj h).1⟩
    | cons => cases (List.cons.inj h).2

/-! ## Strings and closing brackets -/

/-- A string ends at its second double quote, whatever follows. -/
theorem pieces_string {inside : List Char} (missing : '\x22' ∉ inside) (rest : List Char) :
    pieces ('\x22' :: (inside ++ '\x22' :: rest)) =
      ⟨.string, '\x22' :: (inside ++ ['\x22'])⟩ :: pieces rest := by
  have whole : lexeme '\x22' (inside ++ '\x22' :: rest) = (.string, inside.length + 1) := by
    rw [lexeme_quote, if_pos (List.mem_append_right inside List.mem_cons_self),
      takeWhile_ne_append missing]
  rw [pieces_cons, whole, List.take_length_add_append, ← List.drop_drop, List.drop_left]
  rfl

/-- Only a closing bracket begins a token of its kind. -/
theorem lexeme_fst_eq_closer {b : Bracket} {c : Char} {cs : List Char}
    (h : (lexeme c cs).1 = .closer b) : c = b.closer := by
  unfold lexeme at h
  split at h
  · cases h
  · split at h
    · cases h
    · next found =>
      cases h
      exact (by simpa using List.find?_some found : b.closer = c).symm
    · split at h
      · dsimp only at h
        split at h <;> cases h
      · split at h
        · cases h
        · split at h
          · cases h
          · split at h
            · have word := wordKind_cases (c :: cs.takeWhile isWordChar)
              rcases word with kind | kind | kind | kind <;>
                exact absurd (kind.symm.trans h) (by simp)
            · cases h

/-- The token of a closing bracket is the bracket. -/
theorem IsToken.closer_inv {b : Bracket} {cs : List Char} (h : IsToken (.closer b) cs) :
    cs = [b.closer] := by
  cases cs with
  | nil => exact h.elim
  | cons c more =>
    obtain rfl := lexeme_fst_eq_closer (congrArg Prod.fst h)
    have first := pieces_closer b more
    rw [isToken_iff.1 h] at first
    exact congrArg Piece.chars (List.cons.inj first).1

end Tyro.Token
