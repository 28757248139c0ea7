import Tyro.Proofs.Sexp.Shift
import Tyro.Proofs.Sexp.Spans

/-!
# Cutting a text between two tokens

The scanner loses nothing: the tokens of a text make it up, and each stands in it where its span
says. It is local as well: no token depends on what stands before it, and none on what stands behind
it, once it is known where it ends. So a text that is cut between two tokens falls into two texts
with the tokens before and behind the cut (`scan_append_of_boundary`). A lone double quote is no
exception, because the cut does not bring in another one.
-/

namespace Tyro

/-- The measure of characters in bytes is that of the text which they make up. -/
theorem Text.byteSize_toList (s : String) : byteSize s.toList = s.utf8ByteSize := by
  have measure (cs : List Char) : byteSize cs = (String.ofList cs).utf8ByteSize := by
    induction cs with
    | nil => rfl
    | cons c cs ih =>
      rw [byteSize, ih, String.ofList_cons, String.utf8ByteSize_append,
        String.utf8ByteSize_singleton]
  rw [measure, String.ofList_toList]

namespace Token

/-! ## Nothing is lost -/

/-- The tokens stand one after the other, from one byte offset up to another. -/
def Contiguous : Nat → List Token → Nat → Prop
  | start, [], stop => start = stop
  | start, t :: ts, stop => t.span.start = start ∧ Contiguous t.span.stop ts stop

/-- Pieces in their places stand one after the other. -/
theorem contiguous_place (offset : Nat) (ps : List Piece) :
    Contiguous offset (place offset ps) (offset + width ps) := by
  induction ps generalizing offset with
  | nil => rfl
  | cons p ps ih =>
    have later := ih (offset + Text.byteSize p.chars)
    rw [Nat.add_assoc, ← Text.byteSize_append] at later
    exact ⟨rfl, later⟩

/-- A token has at least one character. -/
theorem text_ne_empty {source : String} {t : Token} (h : t ∈ scan source) : t.text ≠ "" := by
  intro empty
  have token := isToken_of_mem_scan h
  rw [empty] at token
  exact token

/-! ## Boundaries -/

/-- The byte offset is the beginning of a text or the end of a token in it. -/
def Boundary (source : String) (k : Nat) : Prop := k = 0 ∨ ∃ t ∈ scan source, t.span.stop = k

/-- A boundary parts the pieces of a text. -/
theorem Boundary.exists_pieces {source : String} {k : Nat} (h : Boundary source k) :
    ∃ ps qs, pieces source.toList = ps ++ qs ∧ width ps = k := by
  rcases h with rfl | ⟨t, mem, rfl⟩
  · exact ⟨[], pieces source.toList, rfl, rfl⟩
  · obtain ⟨ps, p, qs, parts, rfl⟩ := exists_pieces_of_mem_scan mem
    refine ⟨ps ++ [p], qs, by simp [parts], ?_⟩
    simp [ofPiece, width, Text.byteSize_append]

/-- A token in its place takes at least one byte. -/
theorem start_lt_stop {source : String} {t : Token} (h : t ∈ scan source) :
    t.span.start < t.span.stop := by
  obtain ⟨ps, p, qs, parts, rfl⟩ := exists_pieces_of_mem_scan h
  have positive : 0 < width [p] := width_pos parts (List.cons_ne_nil p [])
  simp only [width, List.flatMap_singleton] at positive
  exact Nat.lt_add_of_pos_right positive

/-- **Locality.** At a boundary, a text falls into two texts. The tokens of the first are those that
end at the boundary or before it. The tokens of the second, moved to the boundary, are those that
begin there or behind it. -/
theorem scan_append_of_boundary {source : String} {k : Nat} (h : Boundary source k) :
    ∃ front back, source = front ++ back ∧ front.utf8ByteSize = k ∧
      scan front = (scan source).filter (fun t => t.span.stop ≤ k) ∧
      (scan back).map (shift k) = (scan source).filter fun t => k ≤ t.span.start := by
  obtain ⟨ps, qs, cut, rfl⟩ := h.exists_pieces
  have chars := flatMap_chars_pieces source.toList
  rw [cut, List.flatMap_append] at chars
  have parts : scan source = place 0 ps ++ place (width ps) qs := by
    rw [scan, scanFrom_eq_place, cut, place_append, Nat.zero_add]
  have extent {t : Token} (mem : t ∈ scan source) : t.span.start < t.span.stop := start_lt_stop mem
  rw [parts] at extent
  -- every token is on one side of the boundary
  have before : ∀ t ∈ place 0 ps, t.span.stop ≤ width ps ∧ ¬ width ps ≤ t.span.start := by
    intro t mem
    have stop := (bounds_of_mem_place mem).2
    have taken := extent (List.mem_append_left _ mem)
    omega
  have behind : ∀ t ∈ place (width ps) qs, ¬ t.span.stop ≤ width ps ∧ width ps ≤ t.span.start := by
    intro t mem
    have start := (bounds_of_mem_place mem).1
    have taken := extent (List.mem_append_right _ mem)
    omega
  refine ⟨String.ofList (ps.flatMap Piece.chars), String.ofList (qs.flatMap Piece.chars),
    ?_, ?_, ?_, ?_⟩
  · rw [← String.ofList_append, chars, String.ofList_toList]
  · rw [← Text.byteSize_toList, String.toList_ofList]
  · have first : (place 0 ps).filter (fun t => t.span.stop ≤ width ps) = place 0 ps := by
      apply List.filter_eq_self.2
      intro t mem
      exact decide_eq_true (before t mem).1
    have noneBefore : (place (width ps) qs).filter (fun t => t.span.stop ≤ width ps) = [] := by
      apply List.filter_eq_nil_iff.2
      intro t mem
      simpa using (behind t mem).1
    rw [scan, scanFrom_eq_place, String.toList_ofList, pieces_front_of_cut cut, parts,
      List.filter_append, first, noneBefore, List.append_nil]
  · have noneBehind : (place 0 ps).filter (fun t => width ps ≤ t.span.start) = [] := by
      apply List.filter_eq_nil_iff.2
      intro t mem
      simpa using (before t mem).2
    have last : (place (width ps) qs).filter (fun t => width ps ≤ t.span.start) =
        place (width ps) qs := by
      apply List.filter_eq_self.2
      intro t mem
      exact decide_eq_true (behind t mem).2
    rw [scan, ← scanFrom_add, Nat.zero_add, scanFrom_eq_place, String.toList_ofList,
      pieces_of_cut cut, parts, List.filter_append, noneBehind, last, List.nil_append]

/-- **The scanner loses nothing and is local.** For every text, no token is empty, the tokens make
up the text, each is what the text has at its span, and the spans go without a gap from the
beginning to the end. A text that is cut at a boundary has the tokens before the boundary in its
front part and, moved there, the tokens behind it in its back part. -/
theorem scan_lossless_and_local (source : String) :
    (∀ t ∈ scan source, t.text ≠ "") ∧
    concat (scan source) = source ∧
    (∀ t ∈ scan source, t.span.slice? source = some t.text) ∧
    Contiguous 0 (scan source) source.utf8ByteSize ∧
    ∀ k, Boundary source k → ∃ front back, source = front ++ back ∧ front.utf8ByteSize = k ∧
      scan front = (scan source).filter (fun t => t.span.stop ≤ k) ∧
      (scan back).map (shift k) = (scan source).filter fun t => k ≤ t.span.start := by
  refine ⟨fun t mem => text_ne_empty mem, concat_scan source, fun t mem => slice?_span mem, ?_,
    fun k boundary => scan_append_of_boundary boundary⟩
  have tokens := contiguous_place 0 (pieces source.toList)
  rwa [← scanFrom_eq_place, width, flatMap_chars_pieces, Text.byteSize_toList, Nat.zero_add]
    at tokens

end Token

end Tyro
