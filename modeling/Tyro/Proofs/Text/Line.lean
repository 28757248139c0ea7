import Mathlib.Algebra.GroupWithZero.Nat
import Tyro.Prompt.Basic
import Tyro.Proofs.Form.BoundNames

/-!
# Texts on one line

A text is on one line if there is no line feed in it. What messages are put together from is on one
line by itself: fixed phrases, numbers, words that are tokens. `Text.isLine_append` and the lemmas
beside it take a text apart into what it was put together from.

Texts that each end with a line feed are told apart again by their lines if all of them are on one
line (`Text.lines_endLines`), and there are as many line feeds as texts only then
(`Text.lineFeeds_endLines_eq_length_iff`).
-/

namespace Tyro

namespace Text

/-- How many line feeds are in the text. -/
def lineFeeds (s : String) : Nat := s.toList.count '\n'

/-- The text is on one line: there is no line feed in it. -/
def IsLine (s : String) : Prop := '\n' ∉ s.toList

instance (s : String) : Decidable (IsLine s) := inferInstanceAs (Decidable ('\n' ∉ s.toList))

/-- A text is on one line if it has no line feed. -/
theorem lineFeeds_eq_zero_iff {s : String} : lineFeeds s = 0 ↔ IsLine s := List.count_eq_zero

/-- A text is on one line if there is no line feed among its characters. Literals are such texts:
their characters are given by unification, so that nothing has to be decoded. -/
theorem isLine_ofList {cs : List Char} (line : '\n' ∉ cs) : IsLine (String.ofList cs) := by
  rwa [IsLine, String.toList_ofList]

/-! ## Texts that are put together -/

/-- Two texts make one line together if each does. -/
@[simp] theorem isLine_append {s t : String} : IsLine (s ++ t) ↔ IsLine s ∧ IsLine t := by
  simp [IsLine]

/-- Several texts make one line together if each does. -/
@[simp] theorem isLine_join {texts : List String} :
    IsLine (String.join texts) ↔ ∀ t ∈ texts, IsLine t := by
  simp [IsLine]

/-- So they do with spaces before them. -/
@[simp] theorem isLine_spaced {texts : List String} :
    IsLine (spaced texts) ↔ ∀ t ∈ texts, IsLine t := by
  have space : IsLine " " := by decide
  simp [spaced, space]

/-- Quotes leave a text on its line. -/
@[simp] theorem isLine_quotedText {s : String} : IsLine (quotedText s) ↔ IsLine s := by
  have quote : IsLine "\"" := by decide
  simp [quotedText, quote]

/-! ## Texts that are on one line by themselves -/

@[simp] theorem isLine_booleanText (b : Bool) : IsLine (booleanText b) := by
  cases b <;> exact isLine_ofList (by decide)

/-- A text without blanks is on one line. -/
theorem isLine_of_not_isBlank {s : String} (solid : ∀ c ∈ s.toList, isBlank c = false) :
    IsLine s := by
  intro feed
  exact absurd (solid '\n' feed) (by decide)

/-- A word of one token is on one line. -/
theorem isLine_of_isToken {word : String} (token : Token.IsToken .name word.toList) :
    IsLine word := by
  refine isLine_of_not_isBlank fun c mem => ?_
  have inside := token.isWordChar_of_mem c mem
  simp only [Token.isWordChar, Bool.and_eq_true, Bool.not_eq_true'] at inside
  exact inside.1

/-- A number in figures is on one line. -/
@[simp] theorem isLine_toString (n : Nat) : IsLine (toString n) := by
  intro feed
  rw [Nat.toString_eq_repr, Nat.toList_repr] at feed
  exact absurd (Decimal.isDigit_of_mem_toDigits feed) (by decide)

/-- A decimal is written with digits and a point. -/
theorem isDigit_or_point_of_mem_chars {d : Decimal} {c : Char} (h : c ∈ d.chars) :
    c.isDigit = true ∨ c = '.' := by
  unfold Decimal.chars at h
  split at h
  · exact .inl (Decimal.isDigit_of_mem_toDigits h)
  · rcases List.mem_append.1 h with whole | rest
    · exact .inl (Decimal.isDigit_of_mem_toDigits whole)
    · rcases List.mem_cons.1 rest with point | places
      · exact .inr point
      · exact .inl (Decimal.isDigit_of_mem_padded places)

/-- The text of a number is on one line, infinite ones included. -/
@[simp] theorem isLine_text (x : Float) : IsLine (Number.text x) := by
  have sign (bits : Nat) : '\n' ∉ if bits < Number.signBit then [] else ['-'] := by
    split <;> decide
  have decimal (d : Decimal) : '\n' ∉ d.chars := by
    intro feed
    rcases isDigit_or_point_of_mem_chars feed with digit | point
    · exact absurd digit (by decide)
    · exact absurd point (by decide)
  unfold IsLine Number.text Number.chars
  rw [String.toList_ofList]
  dsimp only
  split
  · simp only [List.mem_append, sign, decimal, or_self, not_false_eq_true]
  · split
    · simp only [List.mem_append, sign, false_or]
      decide
    · decide

/-! ## Phrases -/

@[simp] theorem isLine_keyword (k : Keyword) : IsLine k.text := by
  cases k <;> exact isLine_ofList (by decide)

@[simp] theorem isLine_builtin (f : Builtin) : IsLine f.name := by
  cases f <;> exact isLine_ofList (by decide)

@[simp] theorem isLine_ordinal (n : Nat) : IsLine (ordinal n) := by
  unfold ordinal
  dsimp only
  simp only [isLine_append, isLine_toString, true_and]
  split
  · decide
  · split <;> decide

/-- A number of arguments with its noun is on one line. -/
theorem isLine_countText (n : Nat) : IsLine (Arity.countText n) := by
  unfold Arity.countText
  simp only [isLine_append, isLine_toString, true_and]
  split <;> exact isLine_ofList (by decide)

/-- The complaint about a number of arguments is on one line. -/
@[simp] theorem isLine_complaint (a : Arity) (count : Nat) : IsLine (a.complaint count) := by
  have before {cs : List Char} (line : '\n' ∉ cs) (n : Nat) :
      IsLine (String.ofList cs ++ Arity.countText n) :=
    isLine_append.2 ⟨isLine_ofList line, isLine_countText n⟩
  unfold Arity.complaint
  dsimp only
  simp only [isLine_append]
  refine ⟨⟨⟨isLine_ofList (by decide), ?bound⟩, isLine_ofList (by decide)⟩, ?found⟩
  case bound =>
    cases a.most with
    | none => exact before (by decide) _
    | some most =>
      dsimp only
      split
      · split
        · exact before (by decide) most
        · exact isLine_countText most
      · split
        · exact before (by decide) most
        · exact before (by decide) a.least
  case found =>
    split
    · exact isLine_toString count
    · split
      · exact isLine_ofList (by decide)
      · exact isLine_append.2 ⟨isLine_ofList (by decide), isLine_toString count⟩

/-! ## The lines of a text -/

/-- The texts one after the other, each ended by a line feed. -/
def endLines (texts : List String) : String := String.join (texts.map (· ++ "\n"))

/-- Ended texts have the line feeds inside them, and one more each. -/
theorem lineFeeds_endLines (texts : List String) :
    lineFeeds (endLines texts) = (texts.map lineFeeds).sum + texts.length := by
  induction texts with
  | nil => rfl
  | cons t texts ih =>
    have split : lineFeeds (endLines (t :: texts)) =
        lineFeeds t + (lineFeeds (endLines texts) + 1) := by
      simp [lineFeeds, endLines]
    rw [split, ih, List.map_cons, List.sum_cons, List.length_cons]
    omega

/-- **There are as many line feeds as texts** exactly if all texts are on one line. -/
theorem lineFeeds_endLines_eq_length_iff {texts : List String} :
    lineFeeds (endLines texts) = texts.length ↔ ∀ t ∈ texts, IsLine t := by
  rw [lineFeeds_endLines, Nat.add_eq_right, List.sum_eq_zero_iff_forall_eq_nat]
  simp only [List.forall_mem_map, lineFeeds_eq_zero_iff]

/-- A text without a line feed is the beginning of a line. -/
theorem lines_append {cs rest : List Char} (line : '\n' ∉ cs) :
    Prompt.lines (cs ++ '\n' :: rest) = (cs ++ ['\n']) :: Prompt.lines rest := by
  induction cs with
  | nil => simp [Prompt.lines]
  | cons c cs ih =>
    obtain ⟨first, others⟩ := not_or.1 (mt List.mem_cons.2 line)
    rw [List.cons_append, Prompt.lines, if_neg (Ne.symm first), ih others]
    rfl

/-- **The lines of ended texts are the texts** if all of them are on one line. -/
theorem lines_endLines {texts : List String} (each : ∀ t ∈ texts, IsLine t) :
    Prompt.lines (endLines texts).toList = texts.map fun t => t.toList ++ ['\n'] := by
  induction texts with
  | nil => rfl
  | cons t texts ih =>
    obtain ⟨first, others⟩ := List.forall_mem_cons.1 each
    have split : (endLines (t :: texts)).toList = t.toList ++ '\n' :: (endLines texts).toList := by
      simp [endLines]
    rw [split, lines_append first, ih others, List.map_cons]

end Text

end Tyro
