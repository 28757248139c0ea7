import Mathlib.Data.List.TakeWhile
import Tyro.Token.Scan

/-!
# Scanning without places

* `Piece` is a token without its place, `pieces` is the scan without places, and `place` puts
  pieces into their places; `scanFrom_eq_place` says that the three make up `scanFrom`.
* `lexeme_append` is the locality of the scanner: what ends a word in front of it (`Stops`) does
  not change the token before it, unless that token is a blank run that reaches the end or a double
  quote that is still open.
* `IsToken kind cs` says that a text is one token of a kind by itself. `pieces_append_of_isToken`
  puts such a text in front of another, and `isToken_of_mem_scan` says that every token of a text
  is one by itself.
-/

namespace Tyro

/-- A token without its place. -/
structure Piece where
  kind : TokenKind
  chars : List Char
  deriving DecidableEq, Repr

namespace Token

/-! ## The scan without places -/

/-- The pieces that a text is cut into. -/
def pieces : List Char → List Piece
  | [] => []
  | c :: cs =>
    ⟨(lexeme c cs).1, c :: cs.take (lexeme c cs).2⟩ :: pieces (cs.drop (lexeme c cs).2)
termination_by cs => cs.length

/-- A piece as a token that begins at a byte offset. -/
def ofPiece (offset : Nat) (p : Piece) : Token :=
  ⟨p.kind, String.ofList p.chars, ⟨offset, offset + Text.byteSize p.chars⟩⟩

/-- Pieces as tokens, one after the other from a byte offset on. -/
def place (offset : Nat) : List Piece → List Token
  | [] => []
  | p :: ps => ofPiece offset p :: place (offset + Text.byteSize p.chars) ps

/-- Nothing is cut into no pieces. -/
@[simp] theorem pieces_nil : pieces [] = [] := by rw [pieces]

/-- The first piece is the one that the first character starts. -/
theorem pieces_cons (c : Char) (cs : List Char) :
    pieces (c :: cs) =
      ⟨(lexeme c cs).1, c :: cs.take (lexeme c cs).2⟩ :: pieces (cs.drop (lexeme c cs).2) := by
  rw [pieces]

/-- Scanning is cutting into pieces and putting these into their places. -/
theorem scanFrom_eq_place (offset : Nat) (cs : List Char) :
    scanFrom offset cs = place offset (pieces cs) := by
  fun_induction scanFrom offset cs with
  | case1 => rw [pieces_nil, place]
  | case2 offset c cs kind more found text stop ih =>
    rw [pieces_cons, place, found, ih]
    rfl

/-- Pieces are placed one list after the other. -/
theorem place_append (offset : Nat) (ps qs : List Piece) :
    place offset (ps ++ qs) =
      place offset ps ++ place (offset + Text.byteSize (ps.flatMap Piece.chars)) qs := by
  induction ps generalizing offset with
  | nil => rfl
  | cons p ps ih =>
    simp only [List.cons_append, place, ih, List.flatMap_cons, Text.byteSize_append]
    rw [Nat.add_assoc]

/-! ## What ends a word -/

/-- The text is empty or begins with a character that ends a word. -/
def Stops (cs : List Char) : Prop := ∀ c ∈ cs.head?, isWordChar c = false

/-- Nothing ends a word. -/
theorem stops_nil : Stops [] := by simp [Stops]

/-- A text is one that ends a word by its first character. -/
theorem stops_cons {c : Char} (h : isWordChar c = false) (cs : List Char) : Stops (c :: cs) := by
  simpa [Stops] using h

/-- A text that ends a word does so in front of anything that ends a word. -/
theorem Stops.append {cs rest : List Char} (h : Stops cs) (h' : Stops rest) :
    Stops (cs ++ rest) := by
  cases cs with
  | nil => exact h'
  | cons c cs => exact stops_cons (h c rfl) (cs ++ rest)

/-- A digit is part of a word. -/
theorem isWordChar_of_isDigit {c : Char} (h : c.isDigit = true) : isWordChar c = true := by
  have bounds : 48 ≤ c.toNat ∧ c.toNat ≤ 57 := by
    simpa [Char.isDigit, Char.le_def, UInt32.le_iff_toNat_le] using h
  have notBlank : Text.isBlank c = false := by
    simp only [Text.isBlank, Bool.or_eq_false_iff, Bool.and_eq_false_iff, decide_eq_false_iff_not,
      beq_eq_false_iff_ne]
    omega
  have notDelimiter : c ∉ delimiters := by
    intro h
    simp only [delimiters, List.mem_cons, List.not_mem_nil, or_false] at h
    rcases h with rfl | rfl | rfl | rfl | rfl | rfl | rfl | rfl | rfl | rfl | rfl | rfl <;>
      exact absurd bounds (by decide)
  simp [isWordChar, notBlank, notDelimiter]

/-- What ends a word does not begin with a digit. -/
theorem Stops.isDigit_head {cs : List Char} (h : Stops cs) {c : Char} (hc : c ∈ cs.head?) :
    c.isDigit = false := by
  cases digit : c.isDigit with
  | false => rfl
  | true => exact absurd (isWordChar_of_isDigit digit) (by simp [h c hc])

/-- A run of characters of a class is not longer in front of a text that begins with another. -/
theorem takeWhile_append_of_head {p : Char → Bool} {rest : List Char}
    (h : ∀ c ∈ rest.head?, p c = false) (cs : List Char) :
    (cs ++ rest).takeWhile p = cs.takeWhile p := by
  induction cs with
  | nil =>
    cases rest with
    | nil => rfl
    | cons c rest => simp [h c rfl]
  | cons c cs ih => simp only [List.cons_append, List.takeWhile_cons, ih]

/-! ## Locality -/

/-- A number takes no more characters than there are. -/
theorem digitsAfter_le (cs : List Char) : digitsAfter cs ≤ cs.length := by
  have whole := (List.takeWhile_sublist (l := cs) Char.isDigit).length_le
  unfold digitsAfter
  dsimp only
  split
  · next c rest found =>
    have total := congrArg List.length found
    simp only [List.length_drop, List.length_cons] at total
    have places := (List.takeWhile_sublist (l := rest) Char.isDigit).length_le
    split <;> omega
  · exact whole

/-- What ends a word does not change how a number goes on. -/
theorem digitsAfter_append {rest : List Char} (stops : Stops rest) (cs : List Char) :
    digitsAfter (cs ++ rest) = digitsAfter cs := by
  have head : ∀ c ∈ rest.head?, c.isDigit = false := fun c hc => stops.isDigit_head hc
  have whole := takeWhile_append_of_head head cs
  have le := (List.takeWhile_sublist (l := cs) Char.isDigit).length_le
  unfold digitsAfter
  simp only [whole, List.drop_append_of_le_length le]
  rcases cs.drop (cs.takeWhile Char.isDigit).length with _ | ⟨d, _ | ⟨e, more⟩⟩
  · -- the digits reach the end of the text
    rcases rest with _ | ⟨c, rest⟩
    · rfl
    · have : c ≠ '.' := by
        rintro rfl
        exact absurd (stops '.' rfl) (by decide)
      simp [this]
  · -- one character stands after the digits
    rcases rest with _ | ⟨c, rest⟩
    · rfl
    · by_cases point : d = '.'
      · subst point
        simp [head c rfl]
      · simp [point]
  · by_cases point : d = '.'
    · subst point
      simp [takeWhile_append_of_head head more]
    · simp [point]

/-- What ends a word does not change whether a number begins and how it goes on. -/
theorem numberAfter?_append {rest : List Char} (stops : Stops rest) (c : Char) (cs : List Char) :
    numberAfter? c (cs ++ rest) = numberAfter? c cs := by
  unfold numberAfter?
  rw [digitsAfter_append stops]
  by_cases digit : c.isDigit = true
  · rw [if_pos digit, if_pos digit]
  · rw [if_neg digit, if_neg digit]
    by_cases minus : c = '-'
    · rw [if_pos minus, if_pos minus]
      rcases cs with _ | ⟨d, cs⟩
      · rcases rest with _ | ⟨d, rest⟩
        · rfl
        · simp [stops.isDigit_head (c := d) rfl]
      · simp only [List.cons_append, digitsAfter_append stops]
    · rw [if_neg minus, if_neg minus]

/-- The number of characters that a token takes is not greater than that of those there are. -/
theorem lexeme_le (c : Char) (cs : List Char) : (lexeme c cs).2 ≤ cs.length := by
  have run (p : Char → Bool) := (List.takeWhile_sublist (l := cs) p).length_le
  unfold lexeme
  split
  · next n found =>
    unfold numberAfter? at found
    split at found
    · exact Option.some.inj found ▸ digitsAfter_le cs
    · split at found
      · split at found
        · next d rest =>
          have := digitsAfter_le rest
          split at found
          · cases found
            simp only [List.length_cons]
            omega
          · cases found
        · cases found
      · cases found
  · split
    · exact Nat.zero_le _
    · exact Nat.zero_le _
    · split
      · dsimp only
        split
        · omega
        · exact Nat.zero_le _
      · split
        · exact run _
        · split
          · exact run _
          · split
            · exact run _
            · exact Nat.zero_le _

/-- A run that ends inside a text is the same in front of anything. -/
theorem takeWhile_append_of_lt {p : Char → Bool} {cs : List Char}
    (h : (cs.takeWhile p).length < cs.length) (rest : List Char) :
    (cs ++ rest).takeWhile p = cs.takeWhile p := by
  rw [List.takeWhile_append, if_neg (Nat.ne_of_lt h)]

/-- A double quote is met in a text exactly if the run of other characters ends inside it. -/
theorem length_takeWhile_ne_lt {q : Char} {cs : List Char} :
    (cs.takeWhile (· ≠ q)).length < cs.length ↔ q ∈ cs := by
  induction cs with
  | nil => simp
  | cons c cs ih =>
    by_cases h : c = q
    · simp [h]
    · simp [h, Ne.symm h, ← ih]

/-- A double quote begins a string if another one follows, and is bad if none does. -/
theorem lexeme_quote (cs : List Char) :
    lexeme '\x22' cs =
      if '\x22' ∈ cs then (.string, (cs.takeWhile (· ≠ '\x22')).length + 1)
      else (.bad .unrecognized, 0) := by
  have noNumber : numberAfter? '\x22' cs = none := by
    unfold numberAfter?
    rw [if_neg (by decide), if_neg (by decide)]
  have noOpener : Bracket.ofOpener? '\x22' = none := by decide
  have noCloser : Bracket.ofCloser? '\x22' = none := by decide
  unfold lexeme
  simp only [noNumber, noOpener, noCloser, if_true, length_takeWhile_ne_lt]

/-- **Locality of the scanner.** What ends a word does not change the token in front of it, unless
that token is a double quote that is still open or a run of blanks that has not ended. -/
theorem lexeme_append {rest : List Char} (stops : Stops rest) {c : Char} {cs : List Char}
    (closed : c = '\x22' → '\x22' ∈ cs)
    (ended : (lexeme c cs).1 = .blank → (lexeme c cs).2 < cs.length) :
    lexeme c (cs ++ rest) = lexeme c cs := by
  unfold lexeme at ended ⊢
  rw [numberAfter?_append stops]
  split
  · rfl
  · next noNumber =>
    simp only [noNumber] at ended
    split
    · rfl
    · rfl
    · next noOpener noCloser =>
      simp only [noOpener, noCloser] at ended
      by_cases quote : c = '\x22'
      · have inside := length_takeWhile_ne_lt.2 (closed quote)
        rw [if_pos quote, if_pos quote, takeWhile_append_of_lt inside]
        simp only [inside, if_true, List.length_append]
        rw [if_pos (by omega)]
      · rw [if_neg quote, if_neg quote]
        rw [if_neg quote] at ended
        by_cases comment : c = ';'
        · rw [if_pos comment] at ended
          rw [if_pos comment, if_pos comment, takeWhile_append_of_lt (ended rfl)]
        · rw [if_neg comment, if_neg comment]
          rw [if_neg comment] at ended
          by_cases blank : Text.isBlank c = true
          · rw [if_pos blank] at ended
            rw [if_pos blank, if_pos blank, takeWhile_append_of_lt (ended rfl)]
          · rw [if_neg blank, if_neg blank, takeWhile_append_of_head stops]

/-! ## Texts that are one token -/

/-- The text by itself is one token of the kind. -/
def IsToken (kind : TokenKind) : List Char → Prop
  | [] => False
  | c :: more => lexeme c more = (kind, more.length)

instance (kind : TokenKind) (cs : List Char) : Decidable (IsToken kind cs) :=
  match cs with
  | [] => inferInstanceAs (Decidable False)
  | c :: more => inferInstanceAs (Decidable (lexeme c more = (kind, more.length)))

/-- A text is one token of the kind exactly if it is cut into one piece of the kind. -/
theorem isToken_iff {kind : TokenKind} {cs : List Char} :
    IsToken kind cs ↔ pieces cs = [⟨kind, cs⟩] := by
  cases cs with
  | nil => simp [IsToken]
  | cons c more =>
    have le := lexeme_le c more
    rw [pieces_cons]
    constructor
    · intro h
      rw [IsToken] at h
      simp [h]
    · intro h
      simp only [List.cons.injEq, Piece.mk.injEq, true_and] at h
      obtain ⟨⟨rfl, whole⟩, -⟩ := h
      have length := congrArg List.length whole
      rw [List.length_take, Nat.min_eq_left le] at length
      exact Prod.ext rfl length

/-- A token is the first one of every text that goes on with what ends a word, unless it is blank or
a double quote that is still open. -/
theorem pieces_append_of_isToken {kind : TokenKind} {cs rest : List Char} (h : IsToken kind cs)
    (notBlank : kind ≠ .blank) (notBad : kind ≠ .bad .unrecognized) (stops : Stops rest) :
    pieces (cs ++ rest) = ⟨kind, cs⟩ :: pieces rest := by
  cases cs with
  | nil => exact h.elim
  | cons c more =>
    have closed : c = '\x22' → '\x22' ∈ more := by
      rintro rfl
      refine Decidable.byContradiction fun missing => ?_
      have alone := (lexeme_quote more).trans (if_neg missing)
      exact notBad (congrArg Prod.fst (h.symm.trans alone))
    have ended : (lexeme c more).1 = .blank → (lexeme c more).2 < more.length :=
      fun blank => absurd ((congrArg Prod.fst h).symm.trans blank) notBlank
    rw [List.cons_append, pieces_cons, lexeme_append stops closed ended, h]
    simp

/-! ## Tokens cut out of a text -/

/-- How many characters a fraction takes at the front of a text: a point and the digits after it, if
there are any. -/
def fractionAfter : List Char → Nat
  | '.' :: c :: rest => if c.isDigit then 2 + (rest.takeWhile Char.isDigit).length else 0
  | _ => 0

/-- Without a point in front there is no fraction. -/
theorem fractionAfter_of_ne {c : Char} (h : c ≠ '.') (cs : List Char) :
    fractionAfter (c :: cs) = 0 := by
  unfold fractionAfter
  split
  · next found => exact absurd (List.cons.inj found).1 h
  · rfl

/-- What is left after a run of characters of a class. -/
theorem drop_length_takeWhile (p : Char → Bool) (cs : List Char) :
    cs.drop (cs.takeWhile p).length = cs.dropWhile p := by
  have whole := List.takeWhile_append_dropWhile (p := p) (l := cs)
  have left : (cs.takeWhile p ++ cs.dropWhile p).drop (cs.takeWhile p).length = cs.dropWhile p :=
    List.drop_left
  rwa [whole] at left

/-- A number goes on with its digits and the fraction after them. -/
theorem digitsAfter_eq (cs : List Char) :
    digitsAfter cs =
      (cs.takeWhile Char.isDigit).length + fractionAfter (cs.dropWhile Char.isDigit) := by
  unfold digitsAfter
  simp only [drop_length_takeWhile]
  rcases cs.dropWhile Char.isDigit with _ | ⟨d, _ | ⟨e, more⟩⟩
  · rfl
  · by_cases point : d = '.'
    · subst point
      rfl
    · rw [fractionAfter_of_ne point]
      simp
  · by_cases point : d = '.'
    · subst point
      simp only [fractionAfter]
      split <;> omega
    · rw [fractionAfter_of_ne point]
      simp [point]

/-- A number of a whole part and what follows it goes on with the fraction in what follows. -/
theorem digitsAfter_append_of_isDigit {whole rest : List Char}
    (digits : ∀ c ∈ whole, c.isDigit = true) (ends : ∀ c ∈ rest.head?, c.isDigit = false) :
    digitsAfter (whole ++ rest) = whole.length + fractionAfter rest := by
  have run : rest.takeWhile Char.isDigit = [] ∧ rest.dropWhile Char.isDigit = rest := by
    cases rest with
    | nil => exact ⟨rfl, rfl⟩
    | cons c rest => simp [ends c rfl]
  rw [digitsAfter_eq, List.takeWhile_append_of_pos digits, List.dropWhile_append_of_pos digits,
    run.1, run.2, List.append_nil]

/-- A run of characters of a class is the same at the front of a text that is cut off behind it. -/
theorem takeWhile_take {p : Char → Bool} {cs : List Char} {n : Nat}
    (le : (cs.takeWhile p).length ≤ n) : (cs.take n).takeWhile p = cs.takeWhile p := by
  rw [← List.take_takeWhile, List.take_of_length_le le]

/-- What stands behind the run is cut off at the same place. -/
theorem dropWhile_take {p : Char → Bool} {cs : List Char} {n : Nat}
    (le : (cs.takeWhile p).length ≤ n) :
    (cs.take n).dropWhile p = (cs.dropWhile p).take (n - (cs.takeWhile p).length) := by
  rw [← drop_length_takeWhile, takeWhile_take le, List.drop_take, drop_length_takeWhile]

/-- A fraction is the same at the front of a text that is cut off behind it. -/
theorem fractionAfter_take {cs : List Char} {n : Nat} (le : fractionAfter cs ≤ n) :
    fractionAfter (cs.take n) = fractionAfter cs := by
  rcases cs with _ | ⟨d, cs⟩
  · rw [List.take_nil]
  · by_cases point : d = '.'
    · subst point
      rcases cs with _ | ⟨c, rest⟩
      · cases n <;> simp [fractionAfter]
      · by_cases digit : c.isDigit = true
        · simp only [fractionAfter, if_pos digit] at le
          obtain ⟨more, rfl⟩ : ∃ more, n = more + 2 := ⟨n - 2, by omega⟩
          simp only [List.take_succ_cons, fractionAfter, if_pos digit]
          rw [takeWhile_take (by omega)]
        · rcases n with _ | _ | n <;> simp [fractionAfter, digit]
    · rw [fractionAfter_of_ne point]
      cases n with
      | zero => rfl
      | succ n => exact fractionAfter_of_ne point _

/-- The rest of a number is the same in front of a text that is cut off behind it. -/
theorem digitsAfter_take {cs : List Char} {n : Nat} (le : digitsAfter cs ≤ n) :
    digitsAfter (cs.take n) = digitsAfter cs := by
  rw [digitsAfter_eq] at le
  have whole : (cs.takeWhile Char.isDigit).length ≤ n := by omega
  rw [digitsAfter_eq, digitsAfter_eq, takeWhile_take whole, dropWhile_take whole,
    fractionAfter_take (by omega)]

/-- A number is the same in front of a text that is cut off behind it. -/
theorem numberAfter?_take {c : Char} {cs : List Char} {count n : Nat}
    (h : numberAfter? c cs = some count) (le : count ≤ n) :
    numberAfter? c (cs.take n) = some count := by
  unfold numberAfter? at h ⊢
  by_cases digit : c.isDigit = true
  · rw [if_pos digit] at h ⊢
    cases h
    rw [digitsAfter_take le]
  · rw [if_neg digit] at h ⊢
    by_cases minus : c = '-'
    · rw [if_pos minus] at h ⊢
      rcases cs with _ | ⟨d, rest⟩
      · cases h
      · by_cases first : d.isDigit = true
        · simp only [first, if_true, Option.some.injEq] at h
          obtain ⟨more, rfl⟩ : ∃ more, n = more + 1 := ⟨n - 1, by omega⟩
          simp only [List.take_succ_cons, first, if_true]
          rw [digitsAfter_take (by omega), h]
        · simp [first] at h
    · rw [if_neg minus] at h
      cases h

/-- Where no number begins, none begins in what is cut out of the text. -/
theorem numberAfter?_take_eq_none {c : Char} {cs : List Char} (h : numberAfter? c cs = none)
    (n : Nat) : numberAfter? c (cs.take n) = none := by
  unfold numberAfter? at h ⊢
  by_cases digit : c.isDigit = true
  · rw [if_pos digit] at h
    cases h
  · rw [if_neg digit] at h ⊢
    by_cases minus : c = '-'
    · rw [if_pos minus] at h ⊢
      rcases cs with _ | ⟨d, rest⟩
      · simp
      · by_cases first : d.isDigit = true
        · simp [first] at h
        · cases n <;> simp [first]
    · rw [if_neg minus]

/-- Up to the first double quote a text is a run of other characters. -/
theorem takeWhile_ne_append {q : Char} {cs : List Char} (h : q ∉ cs) (rest : List Char) :
    (cs ++ q :: rest).takeWhile (· ≠ q) = cs := by
  have other : ∀ c ∈ cs, decide (c ≠ q) = true := by
    intro c hc
    exact decide_eq_true fun same => h (same ▸ hc)
  rw [List.takeWhile_append_of_pos other]
  simp

/-- A string is the same in front of a text that is cut off behind it. -/
theorem lexeme_quote_take {cs : List Char} {n : Nat} (le : (lexeme '\x22' cs).2 ≤ n) :
    lexeme '\x22' (cs.take n) = lexeme '\x22' cs := by
  by_cases quoted : '\x22' ∈ cs
  · rw [lexeme_quote, if_pos quoted] at le
    have inside := length_takeWhile_ne_lt.2 quoted
    have same := takeWhile_take (Nat.le_of_succ_le le)
    have quoted' : '\x22' ∈ cs.take n := by
      rw [← length_takeWhile_ne_lt, same, List.length_take]
      omega
    rw [lexeme_quote, lexeme_quote, if_pos quoted, if_pos quoted', same]
  · have missing : '\x22' ∉ cs.take n := fun mem => quoted (List.mem_of_mem_take mem)
    rw [lexeme_quote, lexeme_quote, if_neg quoted, if_neg missing]

/-- **A token is the same in front of a text that is cut off behind it.** -/
theorem lexeme_take {c : Char} {cs : List Char} {n : Nat} (le : (lexeme c cs).2 ≤ n) :
    lexeme c (cs.take n) = lexeme c cs := by
  by_cases quote : c = '\x22'
  · subst quote
    exact lexeme_quote_take le
  · cases number : numberAfter? c cs with
    | some count =>
      have whole : lexeme c cs = (.number, count) := by simp [lexeme, number]
      rw [whole] at le ⊢
      simp [lexeme, numberAfter?_take number le]
    | none =>
      unfold lexeme at le ⊢
      simp only [number] at le
      simp only [number, numberAfter?_take_eq_none number, if_neg quote]
      split
      · rfl
      · rfl
      · next noOpener noCloser =>
        simp only [noOpener, noCloser, if_neg quote] at le
        by_cases comment : c = ';'
        · rw [if_pos comment] at le
          simp only [if_pos comment, takeWhile_take le]
        · rw [if_neg comment] at le
          simp only [if_neg comment]
          by_cases blank : Text.isBlank c = true
          · rw [if_pos blank] at le
            simp only [if_pos blank, takeWhile_take le]
          · rw [if_neg blank] at le
            simp only [if_neg blank]
            by_cases word : isWordChar c = true
            · rw [if_pos word] at le
              simp only [if_pos word, takeWhile_take le]
            · simp [if_neg word]

/-- Every token of a text is a token of its kind by itself. -/
theorem isToken_of_mem_pieces {cs : List Char} {p : Piece} (h : p ∈ pieces cs) :
    IsToken p.kind p.chars := by
  fun_induction pieces cs with
  | case1 => cases h
  | case2 c cs ih =>
    rcases List.mem_cons.1 h with rfl | later
    · change lexeme c (cs.take (lexeme c cs).2) = _
      rw [lexeme_take (Nat.le_refl _), List.length_take, Nat.min_eq_left (lexeme_le c cs)]
    · exact ih later

/-- The pieces of a text make it up. -/
theorem flatMap_chars_pieces (cs : List Char) : (pieces cs).flatMap Piece.chars = cs := by
  fun_induction pieces cs with
  | case1 => rfl
  | case2 c cs ih => rw [List.flatMap_cons, ih, List.cons_append, List.take_append_drop]

/-- Each piece is a token in its place. -/
theorem exists_mem_place {p : Piece} {ps : List Piece} (mem : p ∈ ps) (offset : Nat) :
    ∃ t ∈ place offset ps, t.kind = p.kind ∧ t.text = String.ofList p.chars := by
  induction ps generalizing offset with
  | nil => cases mem
  | cons q ps ih =>
    rcases List.mem_cons.1 mem with rfl | later
    · exact ⟨_, List.mem_cons_self, rfl, rfl⟩
    · obtain ⟨t, there, same⟩ := ih later (offset + Text.byteSize q.chars)
      exact ⟨t, List.mem_cons_of_mem _ there, same⟩

/-- A token in its place is one of the pieces. -/
theorem exists_of_mem_place {offset : Nat} {ps : List Piece} {t : Token} (h : t ∈ place offset ps) :
    ∃ p ∈ ps, t.kind = p.kind ∧ t.text = String.ofList p.chars := by
  induction ps generalizing offset with
  | nil => cases h
  | cons p ps ih =>
    rcases List.mem_cons.1 h with rfl | later
    · exact ⟨p, List.mem_cons_self, rfl, rfl⟩
    · obtain ⟨q, mem, same⟩ := ih later
      exact ⟨q, List.mem_cons_of_mem p mem, same⟩

/-- Every token that the scanner gives is a token of its kind by itself. -/
theorem isToken_of_mem_scan {source : String} {t : Token} (h : t ∈ scan source) :
    IsToken t.kind t.text.toList := by
  unfold scan at h
  rw [scanFrom_eq_place] at h
  obtain ⟨p, mem, kind, text⟩ := exists_of_mem_place h
  rw [kind, text, String.toList_ofList]
  exact isToken_of_mem_pieces mem

end Token

end Tyro
