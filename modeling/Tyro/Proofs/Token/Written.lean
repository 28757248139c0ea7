import Tyro.Expr.Basic
import Tyro.Proofs.Token.Piece

/-!
# The tokens of written text

What a printer writes, as the scanner sees it: strings, numbers, booleans, keywords, templates,
brackets and single spaces. Numbers are digits with at most one point inside, after a minus sign if
there is one (`isToken_digits`, `isToken_fraction`, `IsToken.negative`). In the other direction,
`IsToken.string_inv` says what a string token looks like.
-/

namespace Tyro.Token

/-! ## Kinds of words -/

/-- A word is a lone dot, a boolean, a bad word with a hash sign, or a name. -/
theorem wordKind_cases (word : List Char) :
    wordKind word = .bad .loneDot ∨ wordKind word = .boolean ∨ wordKind word = .bad .badHash ∨
      wordKind word = .name := by
  unfold wordKind
  split
  · exact .inl rfl
  · split
    · exact .inr (.inl rfl)
    · split
      · exact .inr (.inr (.inl rfl))
      · exact .inr (.inr (.inr rfl))

/-! ## Strings -/

/-- A content without double quotes is a string between two of them. -/
theorem isToken_string {content : List Char} (h : '\x22' ∉ content) :
    IsToken .string ('\x22' :: (content ++ ['\x22'])) := by
  rw [IsToken, lexeme_quote, if_pos (by simp), takeWhile_ne_append h]
  simp

/-- Only a double quote with another one after it begins a string. -/
theorem lexeme_fst_eq_string {c : Char} {cs : List Char} (h : (lexeme c cs).1 = .string) :
    c = '\x22' ∧ '\x22' ∈ cs := by
  by_cases quote : c = '\x22'
  · subst quote
    refine ⟨rfl, Decidable.byContradiction fun missing => ?_⟩
    rw [lexeme_quote, if_neg missing] at h
    cases h
  · exfalso
    unfold lexeme at h
    rw [if_neg quote] at h
    split at h
    · cases h
    · split at h
      · cases h
      · cases h
      · split at h
        · cases h
        · split at h
          · cases h
          · split at h
            · have word := wordKind_cases (c :: cs.takeWhile isWordChar)
              rcases word with kind | kind | kind | kind <;>
                exact absurd (kind.symm.trans h) (by decide)
            · cases h

/-- A string token is a content without double quotes between two of them. -/
theorem IsToken.string_inv {cs : List Char} (h : IsToken .string cs) :
    ∃ content, cs = '\x22' :: (content ++ ['\x22']) ∧ '\x22' ∉ content := by
  cases cs with
  | nil => exact h.elim
  | cons c more =>
    obtain ⟨rfl, quoted⟩ := lexeme_fst_eq_string (congrArg Prod.fst h)
    obtain ⟨content, rest, rfl, first⟩ := List.eq_append_cons_of_mem quoted
    rw [IsToken, lexeme_quote, if_pos quoted, takeWhile_ne_append first] at h
    have length := congrArg Prod.snd h
    simp only [List.length_append, List.length_cons] at length
    have atEnd : rest = [] := List.eq_nil_of_length_eq_zero (by omega)
    exact ⟨content, by rw [atEnd], first⟩

/-! ## Words with a meaning -/

/-- A boolean is written as a boolean token. -/
theorem isToken_booleanText (b : Bool) : IsToken .boolean (booleanText b).toList := by
  cases b <;> decide

/-- A keyword is a name token. -/
theorem isToken_keyword (k : Keyword) : IsToken .name k.text.toList := by
  cases k <;> decide

/-- A template is a name token. -/
theorem isToken_template {dots : String} (h : dots ∈ templates) : IsToken .name dots.toList := by
  simp only [templates, List.mem_cons, List.not_mem_nil, or_false] at h
  rcases h with rfl | rfl | rfl | rfl <;> decide

/-! ## Brackets and spaces -/

/-- An opening bracket is a token in front of anything. -/
theorem pieces_opener (b : Bracket) (rest : List Char) :
    pieces (b.opener :: rest) = ⟨.opener b, [b.opener]⟩ :: pieces rest := by
  have bracket : lexeme b.opener rest = (.opener b, 0) := by
    have noNumber : numberAfter? b.opener rest = none := by
      unfold numberAfter?
      rw [if_neg (by cases b <;> decide), if_neg (by cases b <;> decide)]
    unfold lexeme
    simp only [noNumber, Bracket.ofOpener?_opener]
  rw [pieces_cons, bracket]
  rfl

/-- A closing bracket is a token in front of anything. -/
theorem pieces_closer (b : Bracket) (rest : List Char) :
    pieces (b.closer :: rest) = ⟨.closer b, [b.closer]⟩ :: pieces rest := by
  have bracket : lexeme b.closer rest = (.closer b, 0) := by
    have noNumber : numberAfter? b.closer rest = none := by
      unfold numberAfter?
      rw [if_neg (by cases b <;> decide), if_neg (by cases b <;> decide)]
    have noOpener : Bracket.ofOpener? b.closer = none := by cases b <;> decide
    unfold lexeme
    simp only [noNumber, noOpener, Bracket.ofCloser?_closer]
  rw [pieces_cons, bracket]
  rfl

/-- A closing bracket ends a word. -/
theorem stops_closer (b : Bracket) (rest : List Char) : Stops (b.closer :: rest) :=
  stops_cons (by cases b <;> decide) rest

/-- A space ends a word. -/
theorem stops_space (rest : List Char) : Stops (' ' :: rest) := stops_cons (by decide) rest

/-- A blank character begins a run of blanks. -/
theorem lexeme_of_isBlank {c : Char} (blank : Text.isBlank c = true) (cs : List Char) :
    lexeme c cs = (.blank, (cs.takeWhile Text.isBlank).length) := by
  have ne {d : Char} (h : Text.isBlank d = false) : c ≠ d := by
    rintro rfl
    rw [blank] at h
    cases h
  have noNumber : numberAfter? c cs = none := by
    unfold numberAfter?
    rw [if_neg, if_neg (ne (by decide))]
    intro digit
    have word := isWordChar_of_isDigit digit
    simp [isWordChar, blank] at word
  have noOpener : Bracket.ofOpener? c = none := by
    refine List.find?_eq_none.2 fun b _ => ?_
    simpa using (ne (by cases b <;> decide)).symm
  have noCloser : Bracket.ofCloser? c = none := by
    refine List.find?_eq_none.2 fun b _ => ?_
    simpa using (ne (by cases b <;> decide)).symm
  unfold lexeme
  simp only [noNumber, noOpener, noCloser]
  rw [if_neg (ne (by decide)), if_neg (ne (by decide)), if_pos blank]

/-- A space is a token of its own in front of what does not begin with a blank. -/
theorem pieces_space {rest : List Char} (ends : ∀ c ∈ rest.head?, Text.isBlank c = false) :
    pieces (' ' :: rest) = ⟨.blank, [' ']⟩ :: pieces rest := by
  have run : rest.takeWhile Text.isBlank = [] := by
    cases rest with
    | nil => rfl
    | cons c rest => simp [ends c rfl]
  rw [pieces_cons, lexeme_of_isBlank (by decide), run]
  rfl

/-! ## Numbers -/

/-- Digits are a number. -/
theorem isToken_digits {whole : List Char} (nonempty : whole ≠ [])
    (digits : ∀ c ∈ whole, c.isDigit = true) : IsToken .number whole := by
  cases whole with
  | nil => exact absurd rfl nonempty
  | cons c more =>
    have rest : digitsAfter more = more.length := by
      have all : ∀ d ∈ more, d.isDigit = true := fun d hd => digits d (.tail c hd)
      rw [digitsAfter_eq, List.takeWhile_eq_self_iff.2 all, List.dropWhile_eq_nil_iff.2 all]
      rfl
    simp [IsToken, lexeme, numberAfter?, digits c List.mem_cons_self, rest]

/-- Digits, a point and digits again are a number. -/
theorem isToken_fraction {whole places : List Char} (someWhole : whole ≠ [])
    (wholeDigits : ∀ c ∈ whole, c.isDigit = true) (somePlaces : places ≠ [])
    (placesDigits : ∀ c ∈ places, c.isDigit = true) :
    IsToken .number (whole ++ '.' :: places) := by
  rcases whole with _ | ⟨c, more⟩
  · exact absurd rfl someWhole
  · rcases places with _ | ⟨d, places⟩
    · exact absurd rfl somePlaces
    · have run : places.takeWhile Char.isDigit = places :=
        List.takeWhile_eq_self_iff.2 fun e he => placesDigits e (.tail d he)
      have rest : digitsAfter (more ++ '.' :: d :: places) = more.length + (2 + places.length) := by
        have all : ∀ e ∈ more, e.isDigit = true := fun e he => wholeDigits e (.tail c he)
        rw [digitsAfter_append_of_isDigit all (fun e he => by cases he; rfl)]
        simp [fractionAfter, placesDigits d List.mem_cons_self, run]
      simp only [IsToken, lexeme, numberAfter?, List.cons_append,
        wholeDigits c List.mem_cons_self, if_true, rest, List.length_append, List.length_cons]
      rw [Nat.add_comm 2]

/-- A number that begins with a digit is a number after a minus sign too. -/
theorem IsToken.negative {c : Char} {cs : List Char} (h : IsToken .number (c :: cs))
    (digit : c.isDigit = true) : IsToken .number ('-' :: c :: cs) := by
  have rest : digitsAfter cs = cs.length := by
    simpa [IsToken, lexeme, numberAfter?, digit] using h
  have minus : Char.isDigit '-' = false := by decide
  simp [IsToken, lexeme, numberAfter?, minus, digit, rest, Nat.add_comm]

end Tyro.Token
