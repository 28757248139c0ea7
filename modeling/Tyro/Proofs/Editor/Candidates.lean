import Tyro.Editor.Complete
import Tyro.Proofs.Form.BoundNames
import Tyro.Proofs.Token.Boundary

/-!
# Candidates for completion

What is offered is exact, and it can be accepted as it is. The candidates for the name at the cursor
are the known names and the keywords that begin with it. Each of them is one token, whatever it was
derived from (`isToken_of_mem_definedNames`), and a name that goes on to a longer name leaves the
tokens before it as they are (`Token.pieces_append_of_name`): not even a double quote that is open,
or a number that the name stands right behind, takes anything of it. So a candidate in the place of
the name is one token again.
-/

namespace Tyro

open Token

/-! ## Names that go on -/

/-- There is no double quote in a name. -/
theorem Token.IsToken.quote_not_mem {cs : List Char} (name : IsToken .name cs) : '\x22' ∉ cs := by
  intro mem
  have word := name.isWordChar_of_mem '\x22' mem
  revert word
  decide

/-- **A name that goes on** to a longer name at the end of a text leaves the tokens before it. -/
theorem Token.pieces_append_of_name {cs word more : List Char} {ps : List Piece}
    (cut : pieces cs = ps ++ [⟨.name, word⟩]) (name : IsToken .name (word ++ more)) :
    pieces (cs ++ more) = ps ++ [⟨.name, word ++ more⟩] := by
  have closed : '\x22' ∈ more → ⟨.bad .unrecognized, ['\x22']⟩ ∉ ps :=
    fun mem => absurd (List.mem_append_right word mem) name.quote_not_mem
  have stays := pieces_append_of_cut cut more closed (List.cons_ne_nil _ _) (by simp)
  rwa [List.flatMap_singleton, isToken_iff.1 name] at stays

/-- The last token of a text is its last piece, behind the others. -/
theorem Token.exists_pieces_of_last {source : String} {before : List Token} {t : Token}
    (cut : scan source = before ++ [t]) :
    ∃ ps, pieces source.toList = ps ++ [⟨t.kind, t.text.toList⟩] ∧ before = place 0 ps ∧
      t.span.start = width ps := by
  rw [scan, scanFrom_eq_place] at cut
  obtain ⟨ps, rest, parts, first, last⟩ := exists_of_place_append cut
  rw [Nat.zero_add] at last
  obtain ⟨p, rfl, rfl⟩ := exists_of_place_singleton last
  refine ⟨ps, ?_, first, rfl⟩
  rw [parts, ofPiece, String.toList_ofList]

/-- **A name can be replaced** at the end of a text by any name that begins with it: what stands
before it is cut as it was. -/
theorem Token.exists_front_of_name {source : String} {before : List Token} {t : Token}
    (cut : scan source = before ++ [t]) (name : t.kind = .name) :
    ∃ front, source = front ++ t.text ∧ front.utf8ByteSize = t.span.start ∧ scan front = before ∧
      ∀ longer : String, t.text.toList <+: longer.toList → IsToken .name longer.toList →
        scan (front ++ longer) =
          before ++ [⟨.name, longer, ⟨t.span.start, t.span.start + longer.utf8ByteSize⟩⟩] := by
  obtain ⟨ps, parts, rfl, start⟩ := exists_pieces_of_last cut
  rw [name] at parts
  have chars : ps.flatMap Piece.chars ++ t.text.toList = source.toList := by
    have whole := flatMap_chars_pieces source.toList
    rwa [parts, List.flatMap_append, List.flatMap_singleton] at whole
  refine ⟨String.ofList (ps.flatMap Piece.chars), ?_, ?_, ?_, ?_⟩
  · apply String.toList_injective
    rw [String.toList_append, String.toList_ofList, chars]
  · rw [← Text.byteSize_toList, String.toList_ofList, start]
  · rw [scan, scanFrom_eq_place, String.toList_ofList, pieces_front_of_cut parts]
  · intro longer begins token
    obtain ⟨more, goesOn⟩ := begins
    rw [← goesOn] at token
    have replaced := pieces_append_of_name parts token
    rw [← chars, List.append_assoc, goesOn] at replaced
    rw [scan, scanFrom_eq_place, String.toList_append, String.toList_ofList, replaced,
      place_append, Nat.zero_add, start]
    simp [place, ofPiece, Text.byteSize_toList]

namespace Completion

/-! ## Known names are tokens -/

/-- Every name of the library is one token. -/
theorem isToken_of_mem_libraryNames {name : String} (mem : name ∈ libraryNames) :
    IsToken .name name.toList := by
  have all : ∀ name ∈ libraryNames, IsToken .name name.toList := by decide +kernel
  exact all name mem

/-- Every name that a text defines is one token. -/
theorem isToken_of_mem_definedNames {source name : String} (mem : name ∈ definedNames source) :
    IsToken .name name.toList := by
  obtain ⟨form, parsed, bound⟩ := List.mem_flatMap.1 mem
  obtain ⟨datum, read, rfl⟩ := List.mem_map.1 parsed
  cases form : Form.ofSexp datum.sexp with
  | definition d =>
    rw [form] at bound
    have accepted : ¬ (Form.ofSexp datum.sexp).IsMalformed := by
      rw [form]
      exact not_false
    have denotes := form ▸ Form.denotesForm_of_ofSexp rfl accepted
    exact (Definition.isToken_of_mem_boundNames (Sexp.legible_ofText read) denotes bound).1
  | expression | check | malformed =>
    rw [form] at bound
    exact absurd bound List.not_mem_nil

/-- The names are of the library, or each is defined by some text. -/
def AreKnown (known : List String) : Prop :=
  ∀ name ∈ known, name ∈ libraryNames ∨ ∃ source, name ∈ definedNames source

/-- Whatever is a candidate is one token. -/
theorem isToken_of_isCandidate {known : List String} (formed : AreKnown known) {name : String}
    (candidate : name ∈ known ∨ ∃ k : Keyword, k.text = name) : IsToken .name name.toList := by
  rcases candidate with mem | ⟨k, rfl⟩
  · rcases formed name mem with library | ⟨source, defined⟩
    · exact isToken_of_mem_libraryNames library
    · exact isToken_of_mem_definedNames defined
  · exact isToken_keyword k

/-! ## What is offered -/

/-- Every keyword is in the list of all. -/
theorem mem_keywords {name : String} :
    name ∈ Keyword.all.map Keyword.text ↔ ∃ k : Keyword, k.text = name := by
  rw [List.mem_map]
  constructor
  · rintro ⟨k, -, same⟩
    exact ⟨k, same⟩
  · rintro ⟨k, same⟩
    exact ⟨k, by cases k <;> decide, same⟩

/-- The candidates are the known names and the keywords that begin with the text. -/
theorem mem_candidates {known : List String} {text name : String} :
    name ∈ candidates known text ↔
      (name ∈ known ∨ ∃ k : Keyword, k.text = name) ∧ text.toList <+: name.toList := by
  rw [candidates, Text.mem_sortedNames, List.mem_filter, List.mem_append, mem_keywords, beginsWith,
    List.isPrefixOf_iff_prefix]

/-- What is offered depends on what stands before the cursor. -/
theorem offer_append (known : List String) (front back : String) :
    offer known (front ++ back) front.utf8ByteSize =
      match (scan front).getLast? with
      | some t =>
        if t.kind = .name then ⟨t.span.start, candidates known t.text⟩
        else ⟨front.utf8ByteSize, []⟩
      | none => ⟨front.utf8ByteSize, []⟩ := by
  unfold offer
  rw [String.toList_append, ← Text.byteSize_toList, Text.takeBytes_byteSize_append]
  rfl

/-- Where no name ends at the cursor, nothing is offered. -/
theorem offer_of_no_name (known : List String) {front : String}
    (last : ∀ t ∈ (scan front).getLast?, t.kind ≠ .name) (back : String) :
    offer known (front ++ back) front.utf8ByteSize = ⟨front.utf8ByteSize, []⟩ := by
  rw [offer_append]
  split
  · next t final => rw [if_neg (last t final)]
  · rfl

/-- Where a name ends at the cursor, the candidates for it are offered in its place. -/
theorem offer_of_name (known : List String) {front : String} {before : List Token} {t : Token}
    (cut : scan front = before ++ [t]) (name : t.kind = .name) (back : String) :
    offer known (front ++ back) front.utf8ByteSize = ⟨t.span.start, candidates known t.text⟩ := by
  rw [offer_append, cut, List.getLast?_concat]
  exact if_pos name

/-- **Completion is exact, and safe to accept.** Take any known names, any line, and any place in it
between two characters. Where the text before the cursor does not end with a name, nothing is
offered at the cursor. Where it does, the place of this name is offered, with the known names and
the keywords that begin with it, in order and each once. What stands before the name is cut into the
tokens before it. With any candidate behind it, it is cut into the same tokens and one more, which
is the candidate as a name. -/
theorem offer_is_exact_and_safe {known : List String} (formed : AreKnown known)
    (front back : String) :
    ((∀ t ∈ (scan front).getLast?, t.kind ≠ .name) →
      offer known (front ++ back) front.utf8ByteSize = ⟨front.utf8ByteSize, []⟩) ∧
    ∀ before t, scan front = before ++ [t] → t.kind = .name →
      ∃ offered, offer known (front ++ back) front.utf8ByteSize = offered ∧
        offered.start = t.span.start ∧
        offered.candidates.Pairwise (· < ·) ∧
        (∀ c, c ∈ offered.candidates ↔
          (c ∈ known ∨ ∃ k : Keyword, k.text = c) ∧ t.text.toList <+: c.toList) ∧
        ∃ kept, front = kept ++ t.text ∧ kept.utf8ByteSize = offered.start ∧
          scan kept = before ∧
          ∀ c ∈ offered.candidates, scan (kept ++ c) =
            scan kept ++ [⟨.name, c, ⟨offered.start, offered.start + c.utf8ByteSize⟩⟩] := by
  refine ⟨fun last => offer_of_no_name known last back, ?_⟩
  intro before t cut name
  obtain ⟨kept, whole, size, tokens, accepts⟩ := exists_front_of_name cut name
  refine ⟨⟨t.span.start, candidates known t.text⟩, offer_of_name known cut name back, rfl,
    Text.pairwise_sortedNames _, fun _ => mem_candidates, kept, whole, size, tokens, ?_⟩
  intro c mem
  obtain ⟨candidate, begins⟩ := mem_candidates.1 mem
  rw [tokens]
  exact accepts c begins (isToken_of_isCandidate formed candidate)

/-- The names that are known after a text with a constant and a structure whose names begin with a
point. -/
def pointedNames : List String :=
  libraryNames ++ definedNames "(define .x5 1) (define-struct .x (i))"

/-- Names are offered behind a number and a double quote that is open, and take nothing from
these. -/
theorem offer_behind_number :
    AreKnown pointedNames ∧
      offer pointedNames ("\" 1.x" ++ " y") "\" 1.x".utf8ByteSize =
        ⟨3, [".x-i", ".x5", ".x?"]⟩ ∧
      ∃ kept, "\" 1.x" = kept ++ ".x" ∧ kept.utf8ByteSize = 3 ∧
        ∀ c ∈ [".x-i", ".x5", ".x?"],
          scan (kept ++ c) = scan kept ++ [⟨.name, c, ⟨3, 3 + c.utf8ByteSize⟩⟩] := by
  have known : AreKnown pointedNames := by
    intro name mem
    rcases List.mem_append.1 mem with library | defined
    · exact .inl library
    · exact .inr ⟨_, defined⟩
  have tokens : scan "\" 1.x" = [⟨.bad .unrecognized, "\"", ⟨0, 1⟩⟩, ⟨.blank, " ", ⟨1, 2⟩⟩,
      ⟨.number, "1", ⟨2, 3⟩⟩] ++ [⟨.name, ".x", ⟨3, 5⟩⟩] := by decide +kernel
  have shown : candidates pointedNames ".x" = [".x-i", ".x5", ".x?"] := by decide +kernel
  obtain ⟨offered, offers, -, -, -, kept, whole, size, -, accepts⟩ :=
    (offer_is_exact_and_safe known "\" 1.x" " y").2 _ _ tokens rfl
  have place : offered = ⟨3, [".x-i", ".x5", ".x?"]⟩ := by
    rw [← offers, offer_of_name _ tokens rfl, shown]
  subst place
  exact ⟨known, offers, kept, whole, size, accepts⟩

end Completion

end Tyro
