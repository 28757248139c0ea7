import Tyro.Proofs.Guarded.Scan
import Tyro.Proofs.Sexp.Alone
import Tyro.Proofs.Token.Ended

/-!
# Spans part a text

The S-expressions of a text stand in it one after the other, and what is not in the span of any of
them is blank. `Layout` says this of the pieces of a text: it goes from the span of one S-expression
to the next, with the pieces of each. The span of a datum is found from the tokens at its two ends
(`span_of_bounded`), so that tokens parted into data are a layout (`layout_of_parted`).

The tokens make up the text, and each stands in it where its span says (`concat_scan`,
`slice?_span`). Pieces that stand together in a text are cut as by themselves. So the text of a
span, read alone, is the S-expression of the span again (`forms_stand_alone`).
-/

namespace Tyro

open Token Reader

/-! ## Cutting a span out of a text -/

/-- The part of a text that the span covers. There is none if the span does not end where characters
do. -/
def Span.slice? (span : Span) (source : String) : Option String := do
  let (_, rest) ← Text.splitBytes? span.start source.toList
  let (inside, _) ← Text.splitBytes? (span.stop - span.start) rest
  return String.ofList inside

/-- A part of a text is cut out with the span that it takes. -/
theorem Span.slice?_append {source : String} {before inside after : List Char}
    (cut : source.toList = before ++ (inside ++ after)) :
    (Span.mk (Text.byteSize before) (Text.byteSize before + Text.byteSize inside)).slice? source =
      some (String.ofList inside) := by
  unfold slice?
  rw [cut, Text.splitBytes?_append]
  simp only [Option.bind_eq_bind, Option.bind_some, Nat.add_sub_cancel_left,
    Text.splitBytes?_append]
  rfl

/-! ## The span of a datum -/

/-- The span that covers several, from the first of them to the farthest end. -/
theorem Span.foldl_cover_eq {first : Span} {rest : List Span} {stop : Nat}
    (starts : ∀ s ∈ rest, first.start ≤ s.start) (stops : ∀ s ∈ first :: rest, s.stop ≤ stop)
    (reached : ∃ s ∈ first :: rest, s.stop = stop) :
    rest.foldl cover first = ⟨first.start, stop⟩ := by
  induction rest generalizing first with
  | nil =>
    obtain ⟨s, mem, rfl⟩ := reached
    rw [List.mem_singleton.1 mem]
    rfl
  | cons second rest ih =>
    obtain ⟨here, starts⟩ := List.forall_mem_cons.1 starts
    obtain ⟨stop₁, stops⟩ := List.forall_mem_cons.1 stops
    obtain ⟨stop₂, stops⟩ := List.forall_mem_cons.1 stops
    have start : (first.cover second).start = first.start := Nat.min_eq_left here
    have stop' : (first.cover second).stop ≤ stop := Nat.max_le.2 ⟨stop₁, stop₂⟩
    rw [List.foldl_cons, ih, start]
    · rwa [start]
    · exact List.forall_mem_cons.2 ⟨stop', stops⟩
    · obtain ⟨s, mem, rfl⟩ := reached
      rcases List.mem_cons.1 mem with rfl | mem
      · exact ⟨_, List.mem_cons_self, Nat.max_eq_left stop₂⟩
      · rcases List.mem_cons.1 mem with rfl | later
        · exact ⟨_, List.mem_cons_self, Nat.max_eq_right stop₁⟩
        · exact ⟨s, List.mem_cons_of_mem _ later, rfl⟩

namespace Token

/-- The bytes that pieces take. -/
abbrev width (ps : List Piece) : Nat := Text.byteSize (ps.flatMap Piece.chars)

/-- Tokens in their places begin and end inside the text of all of them. -/
theorem bounds_of_mem_place {offset : Nat} {ps : List Piece} {t : Token} (h : t ∈ place offset ps) :
    offset ≤ t.span.start ∧ t.span.stop ≤ offset + width ps := by
  obtain ⟨front, back, cut⟩ := List.append_of_mem h
  obtain ⟨qs, p, rs, rfl, -, rfl⟩ := exists_of_place_eq cut
  simp only [ofPiece, width, List.flatMap_append, List.flatMap_cons, Text.byteSize_append]
  omega

/-- The last of tokens in their places ends where all of them end. -/
theorem stop_of_getLast? {offset : Nat} {ps : List Piece} {t : Token}
    (h : t ∈ (place offset ps).getLast?) : t.span.stop = offset + width ps := by
  obtain ⟨before, cut⟩ := List.getLast?_eq_some_iff.1 h
  obtain ⟨qs, rs, rfl, -, last⟩ := exists_of_place_append cut
  cases rs with
  | nil => cases last
  | cons p rs =>
    obtain ⟨rfl, last⟩ := List.cons.inj last
    cases rs with
    | cons q rs => cases last
    | nil =>
      simp only [ofPiece, width, List.flatMap_append, List.flatMap_cons, List.flatMap_nil,
        Text.byteSize_append, List.append_nil]
      omega

/-- The first of tokens in their places begins where all of them begin. -/
theorem start_of_head? {offset : Nat} {ps : List Piece} {t : Token}
    (h : t ∈ (place offset ps).head?) : t.span.start = offset := by
  cases ps with
  | nil => cases h
  | cons p ps =>
    cases h
    rfl

/-- The span of tokens that begin and end with one that is not blank goes from the first to the
last. -/
theorem span_of_bounded {offset : Nat} {ps : List Piece} (bounded : Bounded (place offset ps))
    {d : Datum} {tail : List Token} (tokens : d.tokens = place offset ps ++ tail)
    (tailBlank : ∀ t ∈ tail, t.kind = .blank) : d.span = ⟨offset, offset + width ps⟩ := by
  obtain ⟨⟨first, head, sign⟩, last, final, sign'⟩ := bounded
  have noTail : tail.filter (fun t => !t.isBlank) = [] :=
    List.filter_eq_nil_iff.2 fun t mem => by simp [isBlank, tailBlank t mem]
  have kept : d.tokens.filter (fun t => !t.isBlank) =
      (place offset ps).filter fun t => !t.isBlank := by
    rw [tokens, List.filter_append, noTail, List.append_nil]
  have inside : ∀ s ∈ ((place offset ps).filter fun t => !t.isBlank).map (·.span),
      offset ≤ s.start ∧ s.stop ≤ offset + width ps := by
    intro s mem
    obtain ⟨t, there, rfl⟩ := List.mem_map.1 mem
    exact bounds_of_mem_place (List.mem_filter.1 there).1
  have reached : ∃ s ∈ ((place offset ps).filter fun t => !t.isBlank).map (·.span),
      s.stop = offset + width ps := by
    refine ⟨last.span, List.mem_map_of_mem (List.mem_filter.2 ⟨List.mem_of_getLast? final, ?_⟩),
      stop_of_getLast? final⟩
    simpa [isBlank] using sign'
  unfold Datum.span
  rw [kept]
  cases ps with
  | nil => cases head
  | cons p ps =>
    cases head
    rw [place, List.filter_cons_of_pos (by simpa [isBlank] using sign), List.map_cons]
      at inside reached ⊢
    obtain ⟨-, others⟩ := List.forall_mem_cons.1 inside
    exact Span.foldl_cover_eq (fun s mem => (others s mem).1) (fun s mem => (inside s mem).2)
      reached

end Token

/-! ## Layouts -/

/-- Pieces from a byte offset on, parted into S-expressions with their spans and blank pieces
before, between and after them. The pieces of each S-expression begin and end with one that is not
blank, and are read as it alone. -/
inductive Sexp.Layout : Nat → List Piece → List Located → Prop
  | blanks (offset : Nat) {ps : List Piece} (blank : ∀ p ∈ ps, p.kind = .blank) :
    Layout offset ps []
  | sexp {offset start : Nat} {gap core rest : List Piece} {whole alone : Sexp} {ds : List Located}
    (gapBlank : ∀ p ∈ gap, p.kind = .blank) (begins : start = offset + width gap)
    (bounded : Bounded (place start core))
    (reads : run [] (place start core) = [⟨alone, place start core⟩])
    (same : whole.UpToBlanks alone) (others : Layout (start + width core) rest ds) :
    Layout offset (gap ++ (core ++ rest)) (⟨whole, ⟨start, start + width core⟩⟩ :: ds)

/-- Pieces are blank if their tokens are. -/
theorem Token.blank_of_place {offset : Nat} {ps : List Piece}
    (blank : ∀ t ∈ place offset ps, t.kind = .blank) : ∀ p ∈ ps, p.kind = .blank := by
  intro p mem
  obtain ⟨t, there, kind, -⟩ := exists_mem_place mem offset
  rw [← kind, blank t there]

/-- Tokens that are parted into data are laid out as their S-expressions. -/
theorem Sexp.layout_of_parted {offset : Nat} {ps : List Piece} {ds : List Datum}
    (parted : Parted (place offset ps) ds) :
    Layout offset ps (ds.map fun d => ⟨d.sexp, d.span⟩) := by
  generalize placed : place offset ps = ts at parted
  induction parted generalizing offset ps with
  | blanks blank =>
    subst placed
    exact .blanks offset (blank_of_place blank)
  | datum gapBlank bounded tailBlank tokens alone same others ih =>
    obtain ⟨gap, behind, rfl, rfl, later⟩ := exists_of_place_append placed
    obtain ⟨core, rest, rfl, rfl, later'⟩ := exists_of_place_append later.symm
    rw [List.map_cons, span_of_bounded bounded tokens tailBlank]
    exact .sexp (blank_of_place gapBlank) rfl bounded alone same (ih later'.symm)

/-- The pieces of a text are laid out as its S-expressions. -/
theorem Sexp.layout_ofText (source : String) :
    Layout 0 (pieces source.toList) (ofText source) := by
  have parted := parted_run (place 0 (pieces source.toList))
  have layout := layout_of_parted parted
  rwa [← scanFrom_eq_place] at layout

/-! ## What layouts say -/

namespace Sexp.Layout

variable {offset : Nat} {ps : List Piece} {ds : List Located}

/-- The S-expressions are inside the text. -/
theorem inside (h : Layout offset ps ds) :
    ∀ d ∈ ds, offset ≤ d.span.start ∧ d.span.stop ≤ offset + width ps := by
  induction h with
  | blanks => exact List.forall_mem_nil _
  | sexp _ begins _ _ _ _ ih =>
    simp only [width, List.flatMap_append, Text.byteSize_append] at begins ih ⊢
    refine List.forall_mem_cons.2 ⟨?_, fun d mem => ?_⟩
    · dsimp only
      omega
    · have later := ih d mem
      omega

/-- The S-expressions stand one after the other. -/
theorem pairwise (h : Layout offset ps ds) :
    ds.Pairwise fun d e => d.span.stop ≤ e.span.start := by
  induction h with
  | blanks => exact .nil
  | sexp _ _ _ _ _ others ih =>
    exact List.pairwise_cons.2 ⟨fun d mem => (others.inside d mem).1, ih⟩

/-- A token is in the span of an S-expression, or it is blank and outside of all of them. -/
theorem inside_or_blank (h : Layout offset ps ds) : ∀ t ∈ place offset ps,
    (∃ d ∈ ds, d.span.start ≤ t.span.start ∧ t.span.stop ≤ d.span.stop) ∨
      t.kind = .blank ∧ ∀ d ∈ ds, t.span.stop ≤ d.span.start ∨ d.span.stop ≤ t.span.start := by
  induction h with
  | blanks offset blank =>
    exact fun t mem => .inr ⟨blank_of_mem_place blank offset t mem, List.forall_mem_nil _⟩
  | @sexp offset start gap core rest whole alone ds gapBlank begins bounded reads same others ih =>
    subst begins
    intro t mem
    rw [place_append, place_append] at mem
    rcases List.mem_append.1 mem with before | mem
    · -- in the gap, everything is still to come
      refine .inr ⟨blank_of_mem_place gapBlank offset t before, ?_⟩
      have stop := (bounds_of_mem_place before).2
      refine List.forall_mem_cons.2 ⟨.inl stop, fun d mem => .inl ?_⟩
      have start := (others.inside d mem).1
      omega
    · rcases List.mem_append.1 mem with here | later
      · exact .inl ⟨_, List.mem_cons_self, bounds_of_mem_place here⟩
      · rcases ih t later with ⟨d, mem, within⟩ | ⟨blank, outside⟩
        · exact .inl ⟨d, List.mem_cons_of_mem _ mem, within⟩
        · refine .inr ⟨blank, List.forall_mem_cons.2 ⟨.inr ?_, outside⟩⟩
          exact (bounds_of_mem_place later).1

/-- The pieces of an S-expression stand together in the text, where its span is. -/
theorem exists_core (h : Layout offset ps ds) : ∀ d ∈ ds, ∃ before core after alone,
    ps = before ++ (core ++ after) ∧ d.span.start = offset + width before ∧
      d.span.stop = d.span.start + width core ∧ Bounded (place d.span.start core) ∧
      run [] (place d.span.start core) = [⟨alone, place d.span.start core⟩] ∧
      d.sexp.UpToBlanks alone := by
  induction h with
  | blanks => exact List.forall_mem_nil _
  | @sexp offset start gap core rest whole alone ds _ begins bounded reads same _ ih =>
    refine List.forall_mem_cons.2 ⟨⟨gap, core, rest, alone, rfl, begins, rfl, bounded, reads, same⟩,
      fun d mem => ?_⟩
    obtain ⟨before, core', after, alone', rfl, begins', facts⟩ := ih d mem
    refine ⟨gap ++ (core ++ before), core', after, alone', by simp, ?_, facts⟩
    rw [begins', begins]
    simp only [width, List.flatMap_append, Text.byteSize_append]
    omega

end Sexp.Layout

/-- Pieces of a text take at least one byte. -/
theorem Token.width_pos {cs : List Char} {ps qs rs : List Piece}
    (cut : pieces cs = ps ++ (qs ++ rs)) (nonempty : qs ≠ []) : 0 < width qs := by
  obtain ⟨q, qs, rfl⟩ := List.exists_cons_of_ne_nil nonempty
  have token : IsToken q.kind q.chars :=
    isToken_of_mem_pieces (by rw [cut]; simp)
  cases chars : q.chars with
  | nil =>
    rw [chars] at token
    exact token.elim
  | cons c more =>
    have positive := c.utf8Size_pos
    simp only [width, List.flatMap_cons, Text.byteSize_append, chars, Text.byteSize]
    omega

/-! ## Tokens in the text -/

namespace Token

/-- The tokens make up the text that was scanned. -/
theorem concat_scan (source : String) : concat (scan source) = source := by
  apply String.toList_injective
  rw [concat, String.toList_join, List.flatMap_map]
  exact flatMap_text_scanFrom 0 source.toList

/-- A token is one of the pieces of the text, behind the pieces before it. -/
theorem exists_pieces_of_mem_scan {source : String} {t : Token} (h : t ∈ scan source) :
    ∃ ps p qs, pieces source.toList = ps ++ p :: qs ∧ t = ofPiece (0 + width ps) p := by
  rw [scan, scanFrom_eq_place] at h
  obtain ⟨before, after, cut⟩ := List.append_of_mem h
  obtain ⟨ps, p, qs, parts, -, placed⟩ := exists_of_place_eq cut
  exact ⟨ps, p, qs, parts, placed⟩

/-- The span of a token is where its text stands. -/
theorem slice?_span {source : String} {t : Token} (h : t ∈ scan source) :
    t.span.slice? source = some t.text := by
  obtain ⟨ps, p, qs, parts, rfl⟩ := exists_pieces_of_mem_scan h
  have chars := flatMap_chars_pieces source.toList
  rw [parts, List.flatMap_append, List.flatMap_cons] at chars
  have sliced := Span.slice?_append chars.symm
  rwa [← Nat.zero_add (Text.byteSize (ps.flatMap Piece.chars))] at sliced

end Token

/-! ## Forms in the text -/

namespace Sexp

/-- Pieces that stand together in a text and are read as one S-expression are read as it, further to
the front, from the text of their own. -/
theorem ofText_of_pieces {start : Nat} {core : List Piece} {alone : Sexp}
    (cut : pieces (core.flatMap Piece.chars) = core) (bounded : Bounded (place start core))
    (reads : run [] (place start core) = [⟨alone, place start core⟩]) :
    ∃ sexp, ofText (String.ofList (core.flatMap Piece.chars)) = [⟨sexp, ⟨0, width core⟩⟩] ∧
      sexp.shift start = alone := by
  have placed := readAll_scanFrom start (String.ofList (core.flatMap Piece.chars))
  have span : Datum.span ⟨alone, place start core⟩ = ⟨start, start + width core⟩ :=
    span_of_bounded bounded (List.append_nil _).symm (List.forall_mem_nil _)
  rw [String.toList_ofList, scanFrom_eq_place, cut, readAll, reads, List.map_singleton, span]
    at placed
  obtain ⟨⟨sexp, start', stop'⟩, one, same⟩ := List.map_eq_singleton_iff.1 placed.symm
  rw [one]
  simp only [Located.shift, Span.shift, Located.mk.injEq, Span.mk.injEq] at same
  obtain ⟨moved, begins, ends⟩ := same
  obtain rfl : start' = 0 := by omega
  obtain rfl : stop' = width core := by omega
  exact ⟨sexp, rfl, moved⟩

/-- **Spans part a text, and each form stands alone.** For every text:

* the tokens make up the text, and each is what the text has at its span;
* no span of an S-expression is empty, and each ends before the next begins;
* a span begins and ends with a token that is not blank;
* a token is in one of the spans, or it is blank and outside of all of them;
* the text of a span, read alone, is exactly one S-expression. It is the one that the span is of,
  moved to the place of the span, but for blank tokens that an unclosed group has at its end. -/
theorem forms_stand_alone (source : String) :
    concat (scan source) = source ∧
    (∀ t ∈ scan source, t.span.slice? source = some t.text) ∧
    (∀ d ∈ ofText source, d.span.start < d.span.stop) ∧
    ((ofText source).Pairwise fun d e => d.span.stop ≤ e.span.start) ∧
    (∀ d ∈ ofText source, ∃ first ∈ scan source, ∃ last ∈ scan source,
      first.kind ≠ .blank ∧ first.span.start = d.span.start ∧
      last.kind ≠ .blank ∧ last.span.stop = d.span.stop) ∧
    (∀ t ∈ scan source,
      (∃ d ∈ ofText source, d.span.start ≤ t.span.start ∧ t.span.stop ≤ d.span.stop) ∨
        t.kind = .blank ∧
          ∀ d ∈ ofText source, t.span.stop ≤ d.span.start ∨ d.span.stop ≤ t.span.start) ∧
    ∀ d ∈ ofText source, ∃ slice sexp, d.span.slice? source = some slice ∧
      ofText slice = [⟨sexp, ⟨0, d.span.stop - d.span.start⟩⟩] ∧
        d.sexp.UpToBlanks (sexp.shift d.span.start) := by
  have layout := layout_ofText source
  have scanned : scan source = place 0 (pieces source.toList) := scanFrom_eq_place 0 _
  refine ⟨concat_scan source, fun t mem => slice?_span mem, fun d mem => ?_, layout.pairwise,
    fun d mem => ?_, ?_, fun d mem => ?_⟩
  · obtain ⟨before, core, after, alone, cut, -, stop, ⟨⟨t, head, -⟩, -⟩, -⟩ :=
      layout.exists_core d mem
    have nonempty : core ≠ [] := by
      rintro rfl
      cases head
    have positive := width_pos cut nonempty
    omega
  · obtain ⟨before, core, after, alone, cut, start, stop, ⟨⟨t, head, sign⟩, u, last, sign'⟩, -⟩ :=
      layout.exists_core d mem
    have there : ∀ t ∈ place d.span.start core, t ∈ scan source := by
      intro t mem
      rw [scanned, cut, place_append, place_append, ← start]
      exact List.mem_append_right _ (List.mem_append_left _ mem)
    have final := stop_of_getLast? last
    rw [← stop] at final
    exact ⟨t, there t (List.mem_of_mem_head? head), u, there u (List.mem_of_getLast? last), sign,
      start_of_head? head, sign', final⟩
  · rw [scanned]
    exact layout.inside_or_blank
  · obtain ⟨before, core, after, alone, cut, start, stop, bounded, reads, same⟩ :=
      layout.exists_core d mem
    have chars := flatMap_chars_pieces source.toList
    rw [cut, List.flatMap_append, List.flatMap_append] at chars
    rw [Nat.zero_add] at start
    have whole : d.span = ⟨width before, width before + width core⟩ := by rw [← start, ← stop]
    have sliced : d.span.slice? source = some (String.ofList (core.flatMap Piece.chars)) := by
      rw [whole]
      exact Span.slice?_append chars.symm
    obtain ⟨sexp, read, moved⟩ := ofText_of_pieces (pieces_between cut) bounded reads
    refine ⟨_, sexp, sliced, ?_, moved ▸ same⟩
    rw [read, stop, Nat.add_sub_cancel_left]

end Sexp

end Tyro
