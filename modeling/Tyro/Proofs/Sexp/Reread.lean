import Tyro.Proofs.Expr.Printable
import Tyro.Proofs.Sexp.Compact
import Tyro.Proofs.Sexp.Legible
import Tyro.Proofs.Sexp.Makes
import Tyro.Proofs.Token.Replay

/-!
# The text of an S-expression is read as the S-expression

`Sexp.render` writes atoms and lists in one way, but errors word for word: comments, line ends and
brackets that do not match stand in the middle of a text that is otherwise spaced evenly. Each of
them has to fail again, in the same way, and must neither take in what is written behind it nor be
changed by it.

* `Rereads` is what can be asked for: the same shape and the same atoms, and an error of the same
  kind and, up to blanks at its ends, the same text where there was one. Without an error it is
  equality (`Rereads.eq_of_isClean`).
* `Replays ps sexp` says of the pieces that an S-expression was read from what its text does. The
  only thing that can go wrong behind a text is a double quote, if a lone one is in it. So the text
  may stand in front of all that `Follows` the pieces, and has double quotes only if they have.
* `Makes.replays` is the induction over the tokens of an S-expression, `rereads_ofText` the result.
-/

namespace Tyro

open Token Reader

namespace Sexp

/-! ## What an S-expression may be read as again -/

mutual

/-- The second S-expression has the shape and the atoms of the first. Where the first has an error,
it has one of the same kind whose text is the same but for blanks at the ends. -/
inductive Rereads : Sexp → Sexp → Prop
  | string (content : String) : Rereads (.string content) (.string content)
  | number (value : Float) : Rereads (.number value) (.number value)
  | boolean (value : Bool) : Rereads (.boolean value) (.boolean value)
  | name (word : String) : Rereads (.name word) (.name word)
  | list {items others : List Sexp} (all : RereadsAll items others) :
    Rereads (.list items) (.list others)
  | error {e other : ReadError} (fault : other.fault = e.fault)
    (text : Text.trim other.source = Text.trim e.source) : Rereads (.error e) (.error other)

/-- The same of several S-expressions, one by one. -/
inductive RereadsAll : List Sexp → List Sexp → Prop
  | nil : RereadsAll [] []
  | cons {item other : Sexp} {items others : List Sexp} (first : Rereads item other)
    (later : RereadsAll items others) : RereadsAll (item :: items) (other :: others)

end

mutual

/-- Without an error, it is the same S-expression. -/
theorem Rereads.eq_of_isClean {sexp again : Sexp} :
    sexp.Rereads again → sexp.IsClean → again = sexp
  | .string _, _ => rfl
  | .number _, _ => rfl
  | .boolean _, _ => rfl
  | .name _, _ => rfl
  | .list all, clean => by rw [all.eq_of_isClean (isClean_list_iff.1 clean)]
  | .error _ _, clean => absurd clean (not_isClean_error _)

/-- Without errors, they are the same S-expressions. -/
theorem RereadsAll.eq_of_isClean {items again : List Sexp} :
    RereadsAll items again → (∀ item ∈ items, item.IsClean) → again = items
  | .nil, _ => rfl
  | .cons first later, clean => by
    obtain ⟨one, others⟩ := List.forall_mem_cons.1 clean
    rw [first.eq_of_isClean one, later.eq_of_isClean others]

end

/-! ## Texts -/

/-- An error is written as its text without blanks at the ends. -/
theorem toList_render_error (e : ReadError) :
    (Sexp.error e).render.toList = Text.trimChars e.source.toList := by
  rw [render, Text.trim, String.toList_ofList]

/-- The text of an error is that of the pieces that it was read from. -/
theorem toList_source (fault : ReadFault) (n : Nat) (ps : List Piece) :
    (ReadError.source ⟨fault, place n ps⟩).toList = ps.flatMap Piece.chars := by
  rw [ReadError.source, concat, String.toList_join, List.flatMap_map]
  induction ps generalizing n with
  | nil => rfl
  | cons p ps ih =>
    rw [place, List.flatMap_cons, List.flatMap_cons, ih, ofPiece, String.toList_ofList]

/-- Errors of the same kind and the same pieces are the same but for their places. -/
theorem rereads_place (fault : ReadFault) (m n : Nat) (ps : List Piece) :
    (Sexp.error ⟨fault, place m ps⟩).Rereads (.error ⟨fault, place n ps⟩) := by
  refine .error rfl ?_
  rw [Text.trim, Text.trim, toList_source, toList_source]

/-- Texts with a space between them are the first and the others, each after a space. -/
theorem intercalate_cons (text : String) (texts : List String) :
    " ".intercalate (text :: texts) = text ++ spaced texts := by
  induction texts generalizing text with
  | nil => simp [spaced]
  | cons other texts ih =>
    rw [String.intercalate_cons_cons, ih, spaced, spaced, List.map_cons, String.join_cons]
    simp [String.append_assoc]

/-! ## Texts that are read as before -/

/-- What the text of an S-expression does, where the S-expression was read from the pieces: it
begins with a character that is not blank and has double quotes only if the pieces have, and in
front of all that can follow the pieces it is read as the S-expression again. -/
structure Replays (ps : List Piece) (sexp : Sexp) : Prop where
  begins : ∃ c more, sexp.render.toList = c :: more ∧ Text.isBlank c = false
  quotes : '\x22' ∈ sexp.render.toList → '\x22' ∈ ps.flatMap Piece.chars
  cut : ∃ qs, (∀ rest, Follows ps rest → pieces (sexp.render.toList ++ rest) = qs ++ pieces rest) ∧
    ∀ offset, ∃ again, Reads (place offset qs) again ∧ sexp.Rereads again

/-- The same of several S-expressions and a text of them. -/
structure ReplaysAll (ps : List Piece) (text : List Char) (items : List Sexp) : Prop where
  quotes : '\x22' ∈ text → '\x22' ∈ ps.flatMap Piece.chars
  cut : ∃ qs, (∀ rest, Follows ps rest → pieces (text ++ rest) = qs ++ pieces rest) ∧
    ∀ offset, ∃ again, ReadsItems (place offset qs) again ∧ RereadsAll items again

variable {ps qs : List Piece} {sexp : Sexp} {items : List Sexp} {text : List Char}

/-- What can follow pieces can follow each of them. -/
theorem follows_of_subset {rest : List Char} (subset : qs ⊆ ps) (h : Follows ps rest) :
    Follows qs rest :=
  ⟨h.1, fun mem => h.2 (subset mem)⟩

/-- Pieces more may be there than those that S-expressions were read from. -/
theorem ReplaysAll.mono (h : ReplaysAll qs text items) (subset : qs ⊆ ps) :
    ReplaysAll ps text items where
  quotes mem := by
    obtain ⟨q, there, inside⟩ := List.mem_flatMap.1 (h.quotes mem)
    exact List.mem_flatMap.2 ⟨q, subset there, inside⟩
  cut := by
    obtain ⟨ps', cut, reads⟩ := h.cut
    exact ⟨ps', fun rest follows => cut rest (follows_of_subset subset follows), reads⟩

/-! ### Atoms -/

/-- A text that spells an S-expression is read as it. -/
theorem Spells.replays (h : Spells sexp.render.toList sexp) (same : sexp.Rereads sexp)
    (quotes : '\x22' ∈ sexp.render.toList → '\x22' ∈ ps.flatMap Piece.chars) :
    Replays ps sexp where
  begins := h.1
  quotes := quotes
  cut := by
    obtain ⟨-, qs, cut, reads⟩ := h
    exact ⟨qs, fun rest follows => cut rest follows.1, fun offset => ⟨sexp, reads offset, same⟩⟩

/-- The text of a number has no double quote. -/
theorem not_mem_text {value : Float} (finite : Number.IsFinite value) :
    '\x22' ∉ (Number.text value).toList := by
  intro mem
  rw [Number.text, String.toList_ofList] at mem
  have word := (Number.isToken_chars finite).next.isNumeral.isWordChar _ mem
  exact absurd word (by decide)

/-- The text of a boolean has no double quote. -/
theorem not_mem_booleanText (value : Bool) : '\x22' ∉ (booleanText value).toList := by
  cases value <;> decide

/-! ### Errors -/

/-- Tokens that begin and end with one that is not blank, as pieces. -/
theorem bounded_place {n : Nat} (h : Bounded (place n ps)) :
    ps ≠ [] ∧ (∀ p ∈ ps.head?, p.kind ≠ .blank) ∧ ∀ p ∈ ps.getLast?, p.kind ≠ .blank := by
  obtain ⟨⟨t, head, first⟩, u, final, last⟩ := h
  refine ⟨?_, ?_, ?_⟩
  · rintro rfl
    cases head
  · cases ps with
    | nil => exact nofun
    | cons p ps =>
      cases head
      rintro q ⟨⟩
      exact first
  · rcases List.eq_nil_or_concat' ps with rfl | ⟨front, p, rfl⟩
    · exact nofun
    · rw [place_append, place, place, List.getLast?_concat, Option.mem_some_iff] at final
      subst final
      rw [List.getLast?_concat]
      rintro q ⟨⟩
      exact last

/-- An error is written word for word if its tokens begin and end with one that is not blank. -/
theorem toList_render_place {n : Nat} (bounded : Bounded (place n ps)) (isCut : IsCut ps)
    (fault : ReadFault) :
    (Sexp.error ⟨fault, place n ps⟩).render.toList = ps.flatMap Piece.chars := by
  obtain ⟨-, first, last⟩ := bounded_place bounded
  rw [toList_render_error, toList_source, (isCut.isTrim first last).trimChars_eq]

/-- **An error is written word for word and fails again.** -/
theorem replays_error {n : Nat} {fault : ReadFault}
    (makes : Makes (place n ps) (.error ⟨fault, place n ps⟩)) (isCut : IsCut ps) :
    Replays ps (.error ⟨fault, place n ps⟩) := by
  obtain ⟨nonempty, first, last⟩ := bounded_place makes.bounded
  have trim := isCut.isTrim first last
  have text := toList_render_place makes.bounded isCut fault
  refine ⟨?_, ?_, ps, ?_, ?_⟩
  · rw [text]
    cases chars : ps.flatMap Piece.chars with
    | nil =>
      have cut : pieces _ = ps := isCut
      rw [chars, pieces_nil] at cut
      exact absurd cut.symm nonempty
    | cons c more =>
      rw [chars] at trim
      exact ⟨c, more, rfl, trim.1 c rfl⟩
  · rw [text]
    exact id
  · intro rest follows
    rw [text, isCut.pieces_append last follows]
  · intro offset
    exact ⟨_, (makes.place offset).reads, rereads_place fault n offset ps⟩

/-! ### Lists -/

/-- Nothing is written of nothing. -/
theorem replaysAll_nil (ps : List Piece) : ReplaysAll ps [] [] :=
  ⟨nofun, [], fun _ _ => rfl, fun _ => ⟨[], readsItems_nil, .nil⟩⟩

/-- The text of an S-expression and those of others, each after a space, are read as before if they
come from pieces that stand in this order in a text. -/
theorem Replays.cons (h : Replays ps sexp)
    (h' : ReplaysAll qs (spaced (items.map render)).toList items) (isCut : IsCut (ps ++ qs)) :
    ReplaysAll (ps ++ qs) (sexp.render.toList ++ (spaced (items.map render)).toList)
      (sexp :: items) := by
  obtain ⟨front, cut, reads⟩ := h.cut
  obtain ⟨back, cut', reads'⟩ := h'.cut
  refine ⟨fun mem => ?_, front ++ back, fun rest follows => ?_, fun offset => ?_⟩
  · rw [List.flatMap_append]
    rcases List.mem_append.1 mem with inFirst | inOthers
    · exact List.mem_append_left _ (h.quotes inFirst)
    · exact List.mem_append_right _ (h'.quotes inOthers)
  · have follows' : Follows ps ((spaced (items.map render)).toList ++ rest) := by
      refine ⟨(stops_spaced _).append follows.1, fun lone mem => ?_⟩
      rcases List.mem_append.1 mem with inOthers | inRest
      · exact isCut.not_mem_of_mem lone (h'.quotes inOthers)
      · exact follows.2 (List.mem_append_left _ lone) inRest
    have later := follows_of_subset (List.subset_append_right ps qs) follows
    rw [List.append_assoc, cut _ follows', cut' _ later, List.append_assoc]
  · obtain ⟨again, read, same⟩ := reads offset
    obtain ⟨others, read', same'⟩ := reads' (offset + Text.byteSize (front.flatMap Piece.chars))
    rw [place_append]
    exact ⟨again :: others, read.items.append read', .cons same same'⟩

/-- A space may be written in front of what does not begin with a blank character. -/
theorem ReplaysAll.space (h : ReplaysAll ps text items)
    (begins : ∃ c more, text = c :: more ∧ Text.isBlank c = false) :
    ReplaysAll ps (' ' :: text) items := by
  obtain ⟨c, more, rfl, notBlank⟩ := begins
  obtain ⟨qs, cut, reads⟩ := h.cut
  refine ⟨fun mem => h.quotes ?_, ⟨.blank, [' ']⟩ :: qs, fun rest follows => ?_, fun offset => ?_⟩
  · simpa using mem
  · have ends : ∀ d ∈ ((c :: more) ++ rest).head?, Text.isBlank d = false := by
      rintro d ⟨⟩
      exact notBlank
    rw [List.cons_append, pieces_space ends, cut rest follows, List.cons_append]
  · obtain ⟨again, read, same⟩ := reads (offset + Text.byteSize [' '])
    exact ⟨again, (readsItems_blank rfl).append read, same⟩

/-- Round brackets around the texts of S-expressions are read as their list. -/
theorem ReplaysAll.list
    (h : ReplaysAll ps (" ".intercalate (items.map render)).toList items) :
    Replays ps (.list items) := by
  obtain ⟨qs, cut, reads⟩ := h.cut
  have text : (Sexp.list items).render.toList = Bracket.round.opener ::
      ((" ".intercalate (items.map render)).toList ++ [Bracket.round.closer]) := by
    rw [render, renderAll_eq_map]
    simp [Bracket.opener, Bracket.closer]
  refine ⟨⟨_, _, text, by decide⟩, fun mem => h.quotes ?_,
    ⟨.opener .round, [Bracket.round.opener]⟩ ::
      (qs ++ [⟨.closer .round, [Bracket.round.closer]⟩]), fun rest follows => ?_,
    fun offset => ?_⟩
  · rw [text] at mem
    simpa [Bracket.opener, Bracket.closer] using mem
  · have follows' : Follows ps (Bracket.round.closer :: rest) := by
      refine ⟨stops_closer .round rest, fun lone mem => follows.2 lone ?_⟩
      simpa [Bracket.closer] using mem
    rw [text, List.cons_append, List.append_assoc, List.singleton_append, pieces_opener,
      cut _ follows', pieces_closer]
    simp
  · obtain ⟨again, read, same⟩ := reads (offset + Text.byteSize [Bracket.round.opener])
    rw [place, place_append]
    exact ⟨.list again, read.list rfl rfl, .list same⟩

/-! ## All S-expressions -/

/-- A token that stands for an S-expression is written so that it is read again. -/
theorem replays_standsFor {n : Nat} {p : Piece} (stands : StandsFor (ofPiece n p) sexp)
    (isCut : IsCut [p]) : Replays [p] sexp := by
  have token : IsToken p.kind p.chars := isCut.isToken List.mem_cons_self
  have whole : [p].flatMap Piece.chars = p.chars := List.flatMap_singleton ..
  have again := Makes.single stands
  cases stands with
  | tooLarge => exact @replays_error [p] n _ again isCut
  | bad => exact @replays_error [p] n _ again isCut
  | @number value _ read =>
    have finite := Number.isFinite_of_read? read
    have spells : Spells (Sexp.number value).render.toList (.number value) := by
      rw [render]
      exact spells_number finite
    refine spells.replays (.number value) fun mem => ?_
    rw [render] at mem
    exact absurd mem (not_mem_text finite)
  | boolean =>
    refine Spells.replays (by rw [render]; exact spells_boolean _) (.boolean _) fun mem => ?_
    rw [render] at mem
    exact absurd mem (not_mem_booleanText _)
  | name kind =>
    have kind : p.kind = .name := kind
    have text : (ofPiece n p).text.toList = p.chars := String.toList_ofList
    rw [kind, ← text] at token
    refine Spells.replays (by rw [render]; exact spells_name token) (.name _) fun mem => ?_
    rwa [render, text, ← whole] at mem
  | string kind =>
    have kind : p.kind = .string := kind
    rw [kind] at token
    obtain ⟨content, chars, unquoted⟩ := token.string_inv
    have inside : (ofPiece n p).text.toList.tail.dropLast = content := by
      simp [ofPiece, chars]
    rw [inside]
    refine Spells.replays ?_ (.string _) fun _ => ?_
    · rw [render]
      exact spells_string (by rwa [String.toList_ofList])
    · rw [whole, chars]
      exact List.mem_cons_self

/-- The pieces of a group are its brackets and what is inside. -/
theorem exists_of_place_group {n : Nat} {opened closed : Token} {inside : List Token}
    (h : opened :: (inside ++ [closed]) = place n ps) :
    ∃ p qs r m, ps = p :: (qs ++ [r]) ∧ inside = place m qs := by
  have parted : place n ps = (opened :: inside) ++ [closed] := h.symm
  obtain ⟨front, last, rfl, begins, ends⟩ := exists_of_place_append parted
  cases front with
  | nil => cases begins
  | cons p qs =>
    cases last with
    | nil => cases ends
    | cons r more =>
      cases more with
      | nil => exact ⟨p, qs, r, _, rfl, (List.cons.inj begins).2⟩
      | cons => cases (List.cons.inj ends).2

/-- What is inside a group is a text of its own. -/
theorem isCut_inside {p r : Piece} (h : IsCut (p :: (qs ++ [r]))) : IsCut qs := by
  have parted : IsCut ([p] ++ (qs ++ [r])) := h
  exact parted.right.left

mutual

/-- **What tokens make is written so that it is read again.** -/
theorem replays_of_makes {ts : List Token} {n : Nat} {ps : List Piece} {sexp : Sexp}
    (placed : ts = place n ps) (isCut : IsCut ps) : (makes : Makes ts sexp) → Replays ps sexp
  | .single stands => by
    obtain ⟨p, rfl, rfl⟩ := exists_of_place_singleton placed
    exact replays_standsFor stands isCut
  | .list opens all closes => by
    obtain ⟨p, qs, r, m, rfl, inside⟩ := exists_of_place_group placed
    have items := (replays_of_makesAll inside (isCut_inside isCut) all).2
    exact (items.mono fun q mem => List.mem_cons_of_mem p (List.mem_append_left [r] mem)).list
  | .mismatched opens all closes differ => by
    rw [placed]
    refine replays_error (n := n) ?_ isCut
    rw [← placed]
    exact .mismatched opens all closes differ

/-- What tokens inside a group make is written so that it is read again, with a space before each
text or between any two of them. -/
theorem replays_of_makesAll {ts : List Token} {n : Nat} {ps : List Piece} {items : List Sexp}
    (placed : ts = place n ps) (isCut : IsCut ps) : (makes : MakesAll ts items) →
      ReplaysAll ps (spaced (items.map render)).toList items ∧
        ReplaysAll ps (" ".intercalate (items.map render)).toList items
  | .nil => ⟨replaysAll_nil ps, replaysAll_nil ps⟩
  | @MakesAll.blank t us _ _ later => by
    have parted : place n ps = [t] ++ us := placed.symm
    obtain ⟨qs, rs, rfl, one, others⟩ := exists_of_place_append parted
    obtain ⟨each, between⟩ := replays_of_makesAll others isCut.right later
    have subset := List.subset_append_right qs rs
    exact ⟨each.mono subset, between.mono subset⟩
  | .item first later => by
    obtain ⟨qs, rs, rfl, one, others⟩ := exists_of_place_append placed.symm
    have head := replays_of_makes one isCut.left first
    have whole := head.cons (replays_of_makesAll others isCut.right later).1 isCut
    rw [List.map_cons, toList_spaced_cons, intercalate_cons, String.toList_append]
    refine ⟨whole.space ?_, whole⟩
    obtain ⟨c, more, text, notBlank⟩ := head.begins
    rw [text]
    exact ⟨c, _, rfl, notBlank⟩

end

/-! ## Texts of all that is read -/

/-- What is written so that it is read again is all that its text is read as. -/
theorem Replays.ofText (h : Replays ps sexp) :
    ∃ again, (ofText sexp.render).map (·.sexp) = [again] ∧ sexp.Rereads again := by
  obtain ⟨qs, cut, reads⟩ := h.cut
  obtain ⟨again, read, same⟩ := reads 0
  have whole := cut [] ⟨stops_nil, fun _ => List.not_mem_nil⟩
  rw [List.append_nil, pieces_nil, List.append_nil] at whole
  refine ⟨again, ?_, same⟩
  rw [Sexp.ofText, readAll, scan, scanFrom_eq_place, whole, run_eq_feed, read []]
  rfl

/-- A closing bracket where no group is open is read as one again. -/
theorem ofText_unopened {n : Nat} {p : Piece} {bracket : Bracket}
    (closes : p.kind = .closer bracket) (isCut : IsCut [p]) :
    ∃ again, (ofText (Sexp.error ⟨.unopened, place n [p]⟩).render).map (·.sexp) = [again] ∧
      (Sexp.error ⟨.unopened, place n [p]⟩).Rereads again := by
  have sign : p.kind ≠ .blank := by
    rw [closes]
    exact nofun
  have bounded : Bounded (place n [p]) := ⟨⟨_, rfl, sign⟩, _, rfl, sign⟩
  have cut : pieces _ = [p] := isCut
  refine ⟨_, ?_, rereads_place .unopened n 0 [p]⟩
  rw [ofText, readAll, scan, scanFrom_eq_place, toList_render_place bounded isCut, cut]
  simp [place, ofPiece, run, step, closes, finish]

/-- Groups that are not closed are not closed again. Of the blank tokens behind them, trimming may
leave less. -/
theorem ofText_unclosed {n : Nat} (begins : ∃ t ∈ (place n ps).head?, t.kind ≠ .blank)
    (stays : StaysOpen (place n ps)) (isCut : IsCut ps) :
    ∃ again, (ofText (Sexp.error ⟨.unclosed, place n ps⟩).render).map (·.sexp) = [again] ∧
      (Sexp.error ⟨.unclosed, place n ps⟩).Rereads again := by
  obtain ⟨t, head, sign⟩ := begins
  obtain ⟨us, whole⟩ := List.head?_eq_some_iff.1 head
  obtain ⟨core, tail, rfl, bounded, tailBlank⟩ := exists_trailing_blanks sign us
  have parted : place n ps = (t :: core) ++ tail := whole
  obtain ⟨qs, rs, rfl, front, back⟩ := exists_of_place_append parted
  rw [front] at bounded
  rw [back] at tailBlank
  obtain ⟨nonempty, first, last⟩ := bounded_place bounded
  obtain ⟨bs, blank, cut⟩ := isCut.exists_trimmed nonempty first last (blank_of_place tailBlank)
  -- what the trimmed text leaves of the blank tokens does not close the groups either
  have open' : StaysOpen (place 0 (qs ++ bs)) := by
    rw [place_append] at stays ⊢
    have core := (staysOpen_append_iff tailBlank).1 stays
    exact (staysOpen_append_iff (blank_of_mem_place blank _)).2 (core.place 0)
  have text : (qs ++ bs).flatMap Piece.chars =
      Text.trimChars ((qs ++ rs).flatMap Piece.chars) := by
    rw [← cut, flatMap_chars_pieces]
  refine ⟨.error ⟨.unclosed, place 0 (qs ++ bs)⟩, ?_, .error rfl ?_⟩
  · rw [ofText, readAll, scan, scanFrom_eq_place, toList_render_error, toList_source, cut,
      open'.run]
    rfl
  · rw [Text.trim, Text.trim, toList_source, toList_source, text, Text.trimChars_trimChars]

/-- **The text of an S-expression is read as the S-expression.** Whatever a text is read as, its own
text is read as exactly one S-expression. This has the same shape and the same atoms, and where
there was an error, it has one of the same kind whose text is the same after trimming. Without an
error it is the same S-expression. -/
theorem rereads_ofText (source : String) : ∀ d ∈ ofText source, ∃ again,
    (ofText d.sexp.render).map (·.sexp) = [again] ∧ d.sexp.Rereads again ∧
      (d.sexp.IsClean → again = d.sexp) := by
  intro d mem
  suffices found : ∃ again, (ofText d.sexp.render).map (·.sexp) = [again] ∧ d.sexp.Rereads again by
    obtain ⟨again, read, same⟩ := found
    exact ⟨again, read, same, same.eq_of_isClean⟩
  obtain ⟨datum, completed, rfl⟩ := List.mem_map.1 mem
  have made := made_run (List.forall_mem_nil _) rfl _ datum completed
  obtain ⟨before, behind, cut⟩ := exists_slice [] _ datum completed
  rw [scan, scanFrom_eq_place] at cut
  obtain ⟨qs, rest, parts, -, later⟩ := exists_of_place_append cut
  obtain ⟨ps, us, rfl, tokens, -⟩ := exists_of_place_append later.symm
  have isCut : IsCut ps := pieces_between parts
  cases made with
  | whole makes => exact (replays_of_makes tokens isCut makes).ofText
  | unopened closes =>
    obtain ⟨p, rfl, rfl⟩ := exists_of_place_singleton tokens
    exact ofText_unopened closes isCut
  | @unclosed ts begins stays =>
    obtain rfl : ts = place _ ps := tokens
    exact ofText_unclosed begins stays isCut

/-- A group with a wrong bracket, a comment in it, and a lone double quote are in a list that is
written with other brackets. -/
theorem rereads_ofText_of_errors_in_list :
    ∃ d ∈ ofText "[#t (a ; b\n] \"]", ∃ again,
      (ofText d.sexp.render).map (·.sexp) = [again] ∧ d.sexp.Rereads again ∧
        (d.sexp.IsClean → again = d.sexp) := by
  have read : ofText "[#t (a ; b\n] \"]" = [⟨.list [.boolean true,
      .error ⟨.mismatched, [⟨.opener .round, "(", ⟨4, 5⟩⟩, ⟨.name, "a", ⟨5, 6⟩⟩,
        ⟨.blank, " ", ⟨6, 7⟩⟩, ⟨.blank, "; b", ⟨7, 10⟩⟩, ⟨.blank, "\n", ⟨10, 11⟩⟩,
        ⟨.closer .square, "]", ⟨11, 12⟩⟩]⟩,
      .error ⟨.badToken, [⟨.bad .unrecognized, "\"", ⟨13, 14⟩⟩]⟩], ⟨0, 15⟩⟩] := by decide +kernel
  have mem : _ ∈ ofText "[#t (a ; b\n] \"]" := read ▸ List.mem_cons_self
  exact ⟨_, mem, rereads_ofText _ _ mem⟩

end Sexp

end Tyro
