import Mathlib.Data.List.DropRight
import Tyro.Proofs.Token.Specification

/-!
# Tokens that are written again

Tokens that come from a text and are written word for word into another one are cut as before if
what stands behind them ends a word and closes no string (`pieces_append_of_follows`): a lone double
quote among them would take the next one for its end. In the text that they come from, no double
quote stands behind a lone one (`IsCut.not_mem_of_mem`).

What is written of an error is trimmed. Only blank tokens begin or end with a blank character
(`IsToken.isTrim`), so trimming takes nothing from tokens that begin and end with others, and cuts
off blank tokens behind them in such a way that blank tokens are left (`IsCut.exists_trimmed`).
-/

namespace Tyro

/-! ## Trimming -/

namespace Text

/-- The text neither begins nor ends with a blank character. -/
def IsTrim (cs : List Char) : Prop :=
  (∀ c ∈ cs.head?, isBlank c = false) ∧ ∀ c ∈ cs.getLast?, isBlank c = false

/-- Nothing is dropped from a text that does not begin with a blank character. -/
theorem dropWhile_isBlank_eq_self {cs : List Char} (h : ∀ c ∈ cs.head?, isBlank c = false) :
    cs.dropWhile isBlank = cs := by
  cases cs with
  | nil => rfl
  | cons c cs => rw [List.dropWhile_cons_of_neg (by simp [h c rfl])]

/-- What is left of a text does not begin with a blank character. -/
theorem head?_dropWhile_isBlank (cs : List Char) :
    ∀ c ∈ (cs.dropWhile isBlank).head?, isBlank c = false := by
  intro c mem
  have sign := List.head?_dropWhile_not isBlank cs
  rwa [Option.mem_def.1 mem] at sign

/-- A text that neither begins nor ends with a blank character is not trimmed. -/
theorem IsTrim.trimChars_eq {cs : List Char} (h : IsTrim cs) : trimChars cs = cs := by
  have back : ∀ c ∈ cs.reverse.head?, isBlank c = false := by
    rw [List.head?_reverse]
    exact h.2
  rw [trimChars, dropWhile_isBlank_eq_self h.1, dropWhile_isBlank_eq_self back,
    List.reverse_reverse]

/-- A trimmed text neither begins nor ends with a blank character. -/
theorem isTrim_trimChars (cs : List Char) : IsTrim (trimChars cs) := by
  constructor
  · intro c mem
    -- what is left at the end begins where the text without its blank front does
    obtain ⟨behind, whole⟩ := List.rdropWhile_prefix isBlank (cs.dropWhile isBlank)
    have head := head?_dropWhile_isBlank cs c
    rw [← whole, List.head?_append] at head
    exact head (Option.mem_def.2 (by rw [List.rdropWhile, ← trimChars, Option.mem_def.1 mem]; rfl))
  · rw [trimChars, List.getLast?_reverse]
    exact head?_dropWhile_isBlank _

/-- To trim twice is to trim once. -/
theorem trimChars_trimChars (cs : List Char) : trimChars (trimChars cs) = trimChars cs :=
  (isTrim_trimChars cs).trimChars_eq

/-- Behind a text that neither begins nor ends with a blank character, trimming leaves a front. -/
theorem IsTrim.exists_trimChars_append {cs : List Char} (h : IsTrim cs) (nonempty : cs ≠ [])
    (tail : List Char) : ∃ front, front <+: tail ∧ trimChars (cs ++ tail) = cs ++ front := by
  have begins : (cs ++ tail).dropWhile isBlank = cs ++ tail := by
    apply dropWhile_isBlank_eq_self
    intro c mem
    obtain ⟨d, ds, rfl⟩ := List.exists_cons_of_ne_nil nonempty
    exact h.1 c mem
  have ends : cs.reverse.dropWhile isBlank = cs.reverse := by
    apply dropWhile_isBlank_eq_self
    rw [List.head?_reverse]
    exact h.2
  refine ⟨tail.rdropWhile isBlank, List.rdropWhile_prefix isBlank tail, ?_⟩
  rw [trimChars, begins, List.reverse_append, List.dropWhile_append, ends, List.rdropWhile]
  split
  · next empty => simp [List.isEmpty_iff.1 empty]
  · simp

end Text

namespace Token

/-! ## The ends of tokens -/

/-- A character of a word is not blank. -/
theorem isBlank_of_isWordChar {c : Char} (word : isWordChar c = true) : Text.isBlank c = false := by
  simp only [isWordChar, Bool.and_eq_true, Bool.not_eq_true'] at word
  exact word.1

/-- A numeral is made of characters that words are made of. -/
theorem IsNumeral.isWordChar {cs : List Char} (h : IsNumeral cs) :
    ∀ c ∈ cs, Token.isWordChar c = true := by
  have run {ds : List Char} (digits : IsRun Char.isDigit ds) :
      ∀ c ∈ ds, Token.isWordChar c = true :=
    fun c mem => isWordChar_of_isDigit (digits.2 c mem)
  obtain ⟨sign, whole, fraction, rfl, sign, digits, isFraction⟩ := h
  intro c mem
  rcases List.mem_append.1 mem with inSign | mem
  · rcases sign with rfl | rfl
    · cases inSign
    · rw [List.mem_singleton.1 inSign]
      decide
  · rcases List.mem_append.1 mem with inWhole | inFraction
    · exact run digits c inWhole
    · rcases isFraction with rfl | ⟨places, digits, rfl⟩
      · cases inFraction
      · rcases List.mem_cons.1 inFraction with rfl | inPlaces
        · decide
        · exact run digits c inPlaces

/-- A number is a numeral. -/
theorem Next.isNumeral {rest text : List Char} (h : Next rest .number text) : IsNumeral text := by
  cases h with
  | number longest => exact longest.fits
  | word _ _ isWord => cases isWord

/-- Only blank tokens begin or end with a blank character. -/
theorem Next.isTrim {rest text : List Char} {kind : TokenKind} (h : Next rest kind text)
    (sign : kind ≠ .blank) : Text.IsTrim text := by
  have inside {ds : List Char} (all : ∀ c ∈ ds, isWordChar c = true) : Text.IsTrim ds := by
    refine ⟨fun c mem => ?_, fun c mem => ?_⟩
    · exact isBlank_of_isWordChar (all c (List.mem_of_mem_head? mem))
    · exact isBlank_of_isWordChar (all c (List.mem_of_getLast? mem))
  have single {c : Char} (other : Text.isBlank c = false) : Text.IsTrim [c] := by
    constructor <;>
    · rintro d ⟨⟩
      exact other
  cases h with
  | number longest => exact inside longest.fits.isWordChar
  | opener b => exact single (by cases b <;> decide)
  | closer b => exact single (by cases b <;> decide)
  | @string content =>
    constructor
    · rintro c ⟨⟩
      decide
    · rw [← List.cons_append, List.getLast?_concat]
      rintro c ⟨⟩
      decide
  | blanks => exact absurd rfl sign
  | comment => exact absurd rfl sign
  | word _ longest =>
    apply inside
    rw [isWordChar_eq_inWord]
    exact longest.fits.2
  | stray one =>
    apply single
    simp only [List.mem_cons, List.not_mem_nil, or_false] at one
    rcases one with rfl | rfl | rfl | rfl <;> decide
  | loneQuote => exact single (by decide)

/-- A token by itself is what comes next in its text. -/
theorem IsToken.next {kind : TokenKind} {cs : List Char} (h : IsToken kind cs) :
    Next cs kind cs := by
  rw [next_iff, isToken_iff.1 h, List.head?_cons]

/-! ## Pieces of a text of their own -/

/-- The pieces are those of the text that they make up. -/
def IsCut (ps : List Piece) : Prop := pieces (ps.flatMap Piece.chars) = ps

namespace IsCut

variable {ps qs : List Piece}

/-- What stands in front is a text of its own. -/
theorem left (h : IsCut (ps ++ qs)) : IsCut ps := pieces_front_of_cut h

/-- What stands behind is a text of its own. -/
theorem right (h : IsCut (ps ++ qs)) : IsCut qs := pieces_of_cut h

/-- Each piece is a token by itself. -/
theorem isToken (h : IsCut ps) {p : Piece} (mem : p ∈ ps) : IsToken p.kind p.chars :=
  isToken_of_mem_pieces (h.symm ▸ mem)

/-- Behind a lone double quote there is no other one. -/
theorem not_mem_of_mem (h : IsCut (ps ++ qs)) (lone : ⟨.bad .unrecognized, ['\x22']⟩ ∈ ps) :
    '\x22' ∉ qs.flatMap Piece.chars := by
  obtain ⟨before, after, rfl⟩ := List.append_of_mem lone
  rw [List.append_assoc, List.cons_append] at h
  have alone : pieces _ = _ := h.right
  rw [List.flatMap_cons, List.singleton_append, pieces_cons, lexeme_quote] at alone
  intro mem
  have later : '\x22' ∈ (after ++ qs).flatMap Piece.chars := by
    rw [List.flatMap_append]
    exact List.mem_append_right _ mem
  rw [if_pos later] at alone
  cases congrArg Piece.kind (List.cons.inj alone).1

/-- Pieces that begin and end with one that is not blank make up a text that trimming leaves. -/
theorem isTrim (h : IsCut ps) (first : ∀ p ∈ ps.head?, p.kind ≠ .blank)
    (last : ∀ p ∈ ps.getLast?, p.kind ≠ .blank) : Text.IsTrim (ps.flatMap Piece.chars) := by
  have nonempty {p : Piece} (mem : p ∈ ps) : p.chars ≠ [] := by
    intro empty
    have token := h.isToken mem
    rw [empty] at token
    exact token
  constructor
  · cases ps with
    | nil => exact nofun
    | cons p ps =>
      rw [List.flatMap_cons, List.head?_append_of_ne_nil _ (nonempty List.mem_cons_self)]
      exact ((h.isToken List.mem_cons_self).next.isTrim (first p rfl)).1
  · rcases List.eq_nil_or_concat' ps with rfl | ⟨front, p, rfl⟩
    · exact nofun
    · have mem : p ∈ front ++ [p] := List.mem_append_right front List.mem_cons_self
      rw [List.flatMap_append, List.flatMap_singleton,
        List.getLast?_append_of_ne_nil _ (nonempty mem)]
      exact ((h.isToken mem).next.isTrim (last p List.getLast?_concat)).2

end IsCut

/-! ## In front of another text -/

/-- The text ends a word, and closes no double quote that is open among the pieces. -/
def Follows (ps : List Piece) (rest : List Char) : Prop :=
  Stops rest ∧ (⟨.bad .unrecognized, ['\x22']⟩ ∈ ps → '\x22' ∉ rest)

/-- Pieces that are written in front of a text that can follow them are cut as before, unless the
last of them is blank and could go on. -/
theorem IsCut.pieces_append {ps : List Piece} {rest : List Char} (h : IsCut ps)
    (last : ∀ p ∈ ps.getLast?, p.kind ≠ .blank) (follows : Follows ps rest) :
    pieces (ps.flatMap Piece.chars ++ rest) = ps ++ pieces rest := by
  induction ps with
  | nil => rfl
  | cons p ps ih =>
    have both : IsCut ([p] ++ ps) := h
    have others := both.right
    have last' : ∀ q ∈ ps.getLast?, q.kind ≠ .blank := by
      intro q mem
      apply last q
      rw [List.getLast?_cons, Option.mem_def.1 mem]
      rfl
    have later := ih others last' ⟨follows.1, fun mem => follows.2 (List.mem_cons_of_mem p mem)⟩
    cases chars : p.chars with
    | nil =>
      have token := h.isToken List.mem_cons_self
      rw [chars] at token
      exact token.elim
    | cons c more =>
      have cut : pieces _ = _ := h
      rw [List.flatMap_cons, chars, List.cons_append, pieces_cons] at cut
      generalize whole : more ++ ps.flatMap Piece.chars = cs at cut
      obtain ⟨first, behind⟩ := List.cons.inj cut
      have left := flatMap_chars_pieces (cs.drop (lexeme c cs).2)
      rw [behind] at left
      have same : lexeme c (cs ++ rest) = lexeme c cs := by
        by_cases lone : c = '\x22' ∧ '\x22' ∉ cs
        · obtain ⟨rfl, missing⟩ := lone
          rw [lexeme_quote, if_neg missing, List.take_zero] at first
          have missing' := follows.2 (first ▸ List.mem_cons_self)
          rw [lexeme_quote, lexeme_quote, if_neg missing, if_neg]
          simp [missing, missing']
        · refine lexeme_append follows.1 (fun quote => ?_) fun blank => ?_
          · exact Decidable.byContradiction fun missing => lone ⟨quote, missing⟩
          · -- a blank piece that reaches the end is the last one
            refine Nat.lt_of_not_le fun reaches => ?_
            rw [List.drop_eq_nil_of_le reaches, pieces_nil] at behind
            subst behind
            exact last p rfl (first ▸ blank)
      have le := lexeme_le c cs
      rw [List.flatMap_cons, chars, List.cons_append, List.cons_append, whole, pieces_cons, same,
        List.take_append_of_le_length le, List.drop_append_of_le_length le, first, ← left, later]
      rfl

/-! ## Cut off among blank tokens -/

/-- A blank token goes on with a run of characters of a class that its first character tells. -/
theorem exists_run_of_blank {c : Char} {cs : List Char} (h : (lexeme c cs).1 = .blank) :
    ∃ p : Char → Bool, ∀ ds, lexeme c ds = (.blank, (ds.takeWhile p).length) := by
  rcases lexeme_fst_eq_blank h with rfl | blank
  · exact ⟨_, lexeme_comment⟩
  · exact ⟨_, lexeme_of_isBlank blank⟩

/-- What is dropped from the front of a text is dropped from what the text is cut off to. -/
theorem dropWhile_prefix_dropWhile (p : Char → Bool) {front cs : List Char} (h : front <+: cs) :
    front.dropWhile p <+: cs.dropWhile p := by
  obtain ⟨behind, rfl⟩ := h
  rw [List.dropWhile_append]
  split
  · next empty => simp [List.isEmpty_iff.1 empty]
  · exact List.prefix_append _ _

/-- A text of blank tokens has blank tokens wherever it is cut off. -/
theorem blank_of_mem_pieces_prefix {front cs : List Char} (h : ∀ p ∈ pieces cs, p.kind = .blank)
    (isFront : front <+: cs) : ∀ p ∈ pieces front, p.kind = .blank := by
  fun_induction pieces cs generalizing front with
  | case1 =>
    rw [List.prefix_nil.1 isFront, pieces_nil]
    exact List.forall_mem_nil _
  | case2 c cs ih =>
    obtain ⟨blank, others⟩ := List.forall_mem_cons.1 h
    obtain ⟨p, run⟩ := exists_run_of_blank blank
    cases front with
    | nil =>
      rw [pieces_nil]
      exact List.forall_mem_nil _
    | cons d front =>
      obtain ⟨rfl, shorter⟩ := List.cons_prefix_cons.1 isFront
      rw [run, drop_length_takeWhile] at ih others
      rw [pieces_cons, run, drop_length_takeWhile]
      exact List.forall_mem_cons.2 ⟨rfl, ih others (dropWhile_prefix_dropWhile p shorter)⟩

/-- Trimming the text of pieces that end in blank ones leaves the others and blank ones. -/
theorem IsCut.exists_trimmed {ps qs : List Piece} (h : IsCut (ps ++ qs)) (nonempty : ps ≠ [])
    (first : ∀ p ∈ ps.head?, p.kind ≠ .blank) (last : ∀ p ∈ ps.getLast?, p.kind ≠ .blank)
    (blank : ∀ q ∈ qs, q.kind = .blank) : ∃ bs, (∀ b ∈ bs, b.kind = .blank) ∧
      pieces (Text.trimChars ((ps ++ qs).flatMap Piece.chars)) = ps ++ bs := by
  have printed : ps.flatMap Piece.chars ≠ [] := by
    intro empty
    have cut : pieces _ = ps := h.left
    rw [empty, pieces_nil] at cut
    exact nonempty cut.symm
  obtain ⟨front, isFront, trimmed⟩ :=
    (h.left.isTrim first last).exists_trimChars_append printed (qs.flatMap Piece.chars)
  have blank' : ∀ p ∈ pieces (qs.flatMap Piece.chars), p.kind = .blank := by
    rwa [show pieces _ = qs from h.right]
  refine ⟨pieces front, blank_of_mem_pieces_prefix blank' isFront, ?_⟩
  rw [List.flatMap_append, trimmed, pieces_append_of_prefix h isFront]

end Token

end Tyro
