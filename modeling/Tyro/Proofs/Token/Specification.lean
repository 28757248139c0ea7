import Tyro.Proofs.Token.Boundary

/-!
# What the next token is

`Next rest kind text` says, without an algorithm, what the next token of a text is: which shapes
there are and how far each of them reaches. A shape that has no end of its own takes the longest
front of the text that is of the shape (`IsLongest`). A number is preferred to a word; no other two
shapes begin with the same character.

`next_iff` says that the scanner takes just this token: the shapes leave nothing open, and no two of
them apply. `exists_token_iff_next` says it at every boundary of a text.
-/

namespace Tyro.Token

/-! ## Shapes -/

/-- One or more characters of a class. -/
def IsRun (p : Char → Bool) (cs : List Char) : Prop := cs ≠ [] ∧ ∀ c ∈ cs, p c = true

/-- A point and decimal digits, or nothing. -/
def IsFraction (cs : List Char) : Prop :=
  cs = [] ∨ ∃ places, IsRun Char.isDigit places ∧ cs = '.' :: places

/-- A minus sign or none, decimal digits, and a fraction or none. -/
def IsNumeral (cs : List Char) : Prop :=
  ∃ sign whole fraction, cs = sign ++ (whole ++ fraction) ∧ (sign = [] ∨ sign = ['-']) ∧
    IsRun Char.isDigit whole ∧ IsFraction fraction

/-- A semicolon and characters of the same line. -/
def IsComment (cs : List Char) : Prop := ∃ inside, cs = ';' :: inside ∧ '\n' ∉ inside

/-- The characters that words are made of: not blank, no bracket, no quote of the three kinds, no
comma, semicolon or bar. -/
def inWord (c : Char) : Bool :=
  !Text.isBlank c && c ∉ Bracket.all.map Bracket.opener && c ∉ Bracket.all.map Bracket.closer &&
    c ∉ ['\x22', '\x27', '\x60', ',', ';', '|']

/-- The words for booleans. -/
def booleans : List String := ["#true", "#false", "#t", "#f"]

/-- The kind of a word. -/
inductive IsWord : List Char → TokenKind → Prop
  | dot : IsWord ['.'] (.bad .loneDot)
  | boolean {word : List Char} (known : String.ofList word ∈ booleans) : IsWord word .boolean
  | badHash {word : List Char} (hash : word.head? = some '#')
    (unknown : String.ofList word ∉ booleans) : IsWord word (.bad .badHash)
  | name {word : List Char} (noHash : word.head? ≠ some '#') (noDot : word ≠ ['.']) :
    IsWord word .name

/-- The longest front of a text that is of a shape. -/
structure IsLongest (shape : List Char → Prop) (rest text : List Char) : Prop where
  fits : shape text
  isFront : text <+: rest
  longest : ∀ other, shape other → other <+: rest → other.length ≤ text.length

/-- The next token of a text, by its kind and its characters. -/
inductive Next : List Char → TokenKind → List Char → Prop
  | number {rest text : List Char} (longest : IsLongest IsNumeral rest text) :
    Next rest .number text
  | opener (b : Bracket) (rest : List Char) : Next (b.opener :: rest) (.opener b) [b.opener]
  | closer (b : Bracket) (rest : List Char) : Next (b.closer :: rest) (.closer b) [b.closer]
  | string {inside : List Char} (first : '\x22' ∉ inside) (rest : List Char) :
    Next ('\x22' :: (inside ++ '\x22' :: rest)) .string ('\x22' :: (inside ++ ['\x22']))
  | blanks {rest text : List Char} (longest : IsLongest (IsRun Text.isBlank) rest text) :
    Next rest .blank text
  | comment {rest text : List Char} (longest : IsLongest IsComment rest text) :
    Next rest .blank text
  | word {rest text : List Char} {kind : TokenKind}
    (noNumeral : ∀ front, front <+: rest → ¬ IsNumeral front)
    (longest : IsLongest (IsRun inWord) rest text) (isWord : IsWord text kind) :
    Next rest kind text
  | stray {c : Char} (one : c ∈ ['\x27', '\x60', ',', '|']) (rest : List Char) :
    Next (c :: rest) (.bad .unrecognized) [c]
  | loneQuote {rest : List Char} (missing : '\x22' ∉ rest) :
    Next ('\x22' :: rest) (.bad .unrecognized) ['\x22']

/-! ## Longest fronts -/

variable {c : Char} {cs rest text : List Char} {kind : TokenKind}

/-- There is one longest front at most. -/
theorem IsLongest.unique {shape : List Char → Prop} {other : List Char}
    (h : IsLongest shape rest text) (h' : IsLongest shape rest other) : text = other := by
  have length : text.length = other.length :=
    Nat.le_antisymm (h'.longest text h.fits h.isFront) (h.longest other h'.fits h'.isFront)
  have within := List.prefix_of_prefix_length_le h.isFront h'.isFront (Nat.le_of_eq length)
  exact within.eq_of_length length

/-- A front of characters of a class is not longer than the run of the class. -/
theorem length_le_length_takeWhile {p : Char → Bool} {front : List Char}
    (all : ∀ c ∈ front, p c = true) (isFront : front <+: rest) :
    front.length ≤ (rest.takeWhile p).length := by
  obtain ⟨more, rfl⟩ := isFront
  rw [List.takeWhile_append_of_pos all, List.length_append]
  exact Nat.le_add_right ..

/-- As many characters as a run has are the run. -/
theorem take_length_takeWhile (p : Char → Bool) (cs : List Char) :
    cs.take (cs.takeWhile p).length = cs.takeWhile p :=
  (List.prefix_iff_eq_take.1 (List.takeWhile_prefix p)).symm

/-- The longest run of a class at the front of a text. -/
theorem isLongest_run {p : Char → Bool} (h : p c = true) (cs : List Char) :
    IsLongest (IsRun p) (c :: cs) (c :: cs.takeWhile p) where
  fits := by
    refine ⟨List.cons_ne_nil c _, List.forall_mem_cons.2 ⟨h, ?_⟩⟩
    exact fun _ mem => List.mem_takeWhile_imp mem
  isFront := List.cons_prefix_cons.2 ⟨rfl, List.takeWhile_prefix p⟩
  longest := by
    intro other run isFront
    have le := length_le_length_takeWhile run.2 isFront
    rwa [List.takeWhile_cons_of_pos h] at le

/-- A front of characters of a class begins with one. -/
theorem IsLongest.head {p : Char → Bool} (h : IsLongest (IsRun p) rest text) :
    ∃ c cs, rest = c :: cs ∧ p c = true := by
  obtain ⟨⟨nonempty, all⟩, ⟨more, rfl⟩, -⟩ := h
  obtain ⟨c, cs, rfl⟩ := List.exists_cons_of_ne_nil nonempty
  exact ⟨c, cs ++ more, rfl, all c List.mem_cons_self⟩

/-- The longest comment at the front of a text. -/
theorem isLongest_comment (cs : List Char) :
    IsLongest IsComment (';' :: cs) (';' :: cs.takeWhile (· ≠ '\n')) where
  fits := by
    refine ⟨_, rfl, fun mem => ?_⟩
    simpa using List.mem_takeWhile_imp mem
  isFront := List.cons_prefix_cons.2 ⟨rfl, List.takeWhile_prefix _⟩
  longest := by
    rintro other ⟨inside, rfl, line⟩ isFront
    have others : ∀ c ∈ inside, decide (c ≠ '\n') = true := by
      intro c mem
      exact decide_eq_true fun same => line (same ▸ mem)
    exact Nat.succ_le_succ (length_le_length_takeWhile others (List.cons_prefix_cons.1 isFront).2)

/-! ## Numbers -/

/-- What a fraction takes is a fraction. -/
theorem isFraction_take (cs : List Char) : IsFraction (cs.take (fractionAfter cs)) := by
  unfold fractionAfter
  split
  · next d rest =>
    by_cases digit : d.isDigit = true
    · refine .inr ⟨d :: rest.takeWhile Char.isDigit, (isLongest_run digit rest).fits, ?_⟩
      rw [if_pos digit, Nat.add_comm, List.take_succ_cons, List.take_succ_cons,
        take_length_takeWhile]
    · rw [if_neg digit]
      exact .inl rfl
  · exact .inl rfl

/-- After its first digit, a number has digits and a fraction. -/
theorem take_digitsAfter (cs : List Char) : ∃ more fraction,
    cs.take (digitsAfter cs) = more ++ fraction ∧ (∀ c ∈ more, c.isDigit = true) ∧
      IsFraction fraction := by
  refine ⟨cs.takeWhile Char.isDigit, _, ?_, fun _ mem => List.mem_takeWhile_imp mem,
    isFraction_take (cs.dropWhile Char.isDigit)⟩
  rw [digitsAfter_eq, List.take_add, take_length_takeWhile, drop_length_takeWhile]

/-- Digits and a fraction are not longer than what a number has after its first digit. -/
theorem length_le_digitsAfter {more fraction : List Char} (digits : ∀ c ∈ more, c.isDigit = true)
    (isFraction : IsFraction fraction) (isFront : more ++ fraction <+: cs) :
    (more ++ fraction).length ≤ digitsAfter cs := by
  rcases isFraction with rfl | ⟨places, ⟨nonempty, all⟩, rfl⟩
  · rw [List.append_nil] at isFront ⊢
    rw [digitsAfter_eq]
    exact Nat.le_add_right_of_le (length_le_length_takeWhile digits isFront)
  · obtain ⟨behind, rfl⟩ := isFront
    obtain ⟨d, places, rfl⟩ := List.exists_cons_of_ne_nil nonempty
    obtain ⟨digit, all⟩ := List.forall_mem_cons.1 all
    have run := length_le_length_takeWhile all (List.prefix_append places behind)
    rw [List.append_assoc, digitsAfter_append_of_isDigit digits (by simp)]
    simp only [List.cons_append, fractionAfter, if_pos digit, List.length_append, List.length_cons]
    omega

/-- Where a number begins, it is a numeral. -/
theorem isNumeral_of_numberAfter? {n : Nat} (h : numberAfter? c cs = some n) :
    IsNumeral (c :: cs.take n) := by
  unfold numberAfter? at h
  by_cases digit : c.isDigit = true
  · rw [if_pos digit] at h
    obtain rfl := Option.some.inj h
    obtain ⟨more, fraction, cut, digits, isFraction⟩ := take_digitsAfter cs
    refine ⟨[], c :: more, fraction, by rw [cut]; rfl, .inl rfl, ⟨List.cons_ne_nil c more, ?_⟩,
      isFraction⟩
    exact List.forall_mem_cons.2 ⟨digit, digits⟩
  · rw [if_neg digit] at h
    by_cases minus : c = '-'
    · rw [if_pos minus] at h
      rcases cs with _ | ⟨d, cs⟩
      · cases h
      · by_cases first : d.isDigit = true
        · simp only [first, if_true, Option.some.injEq] at h
          subst h
          obtain ⟨more, fraction, cut, digits, isFraction⟩ := take_digitsAfter cs
          refine ⟨['-'], d :: more, fraction, ?_, .inr rfl, ⟨List.cons_ne_nil d more, ?_⟩,
            isFraction⟩
          · rw [Nat.add_comm, List.take_succ_cons, cut, minus]
            rfl
          · exact List.forall_mem_cons.2 ⟨first, digits⟩
        · simp [first] at h
    · rw [if_neg minus] at h
      cases h

/-- Where a numeral stands at the front, a number begins that is not shorter. -/
theorem exists_numberAfter? {front : List Char} (numeral : IsNumeral front)
    (isFront : front <+: c :: cs) : ∃ n, numberAfter? c cs = some n ∧ front.length ≤ n + 1 := by
  obtain ⟨sign, whole, fraction, rfl, sign, ⟨nonempty, digits⟩, isFraction⟩ := numeral
  obtain ⟨d, more, rfl⟩ := List.exists_cons_of_ne_nil nonempty
  obtain ⟨digit, digits⟩ := List.forall_mem_cons.1 digits
  unfold numberAfter?
  rcases sign with rfl | rfl
  · rw [List.nil_append, List.cons_append, List.cons_prefix_cons] at isFront
    obtain ⟨rfl, isFront⟩ := isFront
    rw [if_pos digit]
    exact ⟨_, rfl, Nat.succ_le_succ (length_le_digitsAfter digits isFraction isFront)⟩
  · rw [List.singleton_append, List.cons_append, List.cons_prefix_cons] at isFront
    obtain ⟨rfl, isFront⟩ := isFront
    rw [if_neg (by decide), if_pos rfl]
    obtain ⟨behind, rfl⟩ := isFront
    have le := length_le_digitsAfter digits isFraction (List.prefix_append _ behind)
    simp only [List.cons_append, List.nil_append, digit, if_true, List.length_cons] at le ⊢
    exact ⟨_, rfl, by omega⟩

/-- The longest numeral at the front of a text. -/
theorem isLongest_numeral {n : Nat} (h : numberAfter? c cs = some n) :
    IsLongest IsNumeral (c :: cs) (c :: cs.take n) where
  fits := isNumeral_of_numberAfter? h
  isFront := List.cons_prefix_cons.2 ⟨rfl, List.take_prefix n cs⟩
  longest := by
    intro other numeral isFront
    obtain ⟨m, found, le⟩ := exists_numberAfter? numeral isFront
    obtain rfl := Option.some.inj (found.symm.trans h)
    have shorter := isFront.length_le
    simp only [List.length_cons, List.length_take] at le shorter ⊢
    omega

/-! ## Words -/

/-- The characters of words are those that the scanner takes. -/
theorem isWordChar_eq_inWord : isWordChar = inWord := by
  funext c
  rw [Bool.eq_iff_iff]
  simp [isWordChar, inWord, delimiters, Bracket.all, Bracket.opener, Bracket.closer]
  tauto

/-- The words for booleans are those that the scanner knows. -/
theorem mem_booleanWords {word : List Char} :
    word ∈ booleanWords ↔ String.ofList word ∈ booleans := by
  have spelled : booleans = booleanWords.map String.ofList := by decide
  rw [spelled, List.mem_map]
  refine ⟨fun mem => ⟨word, mem, rfl⟩, ?_⟩
  rintro ⟨other, mem, same⟩
  rwa [← String.ofList_injective same]

/-- A word is of the kind that the scanner gives it. -/
theorem isWord_iff {word : List Char} : IsWord word kind ↔ kind = wordKind word := by
  constructor
  · intro h
    cases h with
    | dot => rfl
    | boolean known =>
      have known := mem_booleanWords.2 known
      have noDot : word ≠ ['.'] := by
        rintro rfl
        exact absurd known (by decide)
      rw [wordKind, if_neg noDot, if_pos known]
    | badHash hash unknown =>
      have noDot : word ≠ ['.'] := by
        rintro rfl
        exact absurd hash (by decide)
      rw [wordKind, if_neg noDot, if_neg (mt mem_booleanWords.1 unknown), if_pos hash]
    | name noHash noDot =>
      have unknown : word ∉ booleanWords := by
        intro known
        simp only [booleanWords, List.mem_cons, List.not_mem_nil, or_false] at known
        rcases known with rfl | rfl | rfl | rfl <;> exact noHash rfl
      rw [wordKind, if_neg noDot, if_neg unknown, if_neg noHash]
  · rintro rfl
    unfold wordKind
    by_cases dot : word = ['.']
    · rw [if_pos dot, dot]
      exact .dot
    · rw [if_neg dot]
      by_cases known : word ∈ booleanWords
      · rw [if_pos known]
        exact .boolean (mem_booleanWords.1 known)
      · rw [if_neg known]
        by_cases hash : word.head? = some '#'
        · rw [if_pos hash]
          exact .badHash hash (mt mem_booleanWords.2 known)
        · rw [if_neg hash]
          exact .name hash dot

/-- What begins with a character of a word and not with a number begins with the longest word. -/
theorem lexeme_word (number : numberAfter? c cs = none) (word : inWord c = true) :
    lexeme c cs = (wordKind (c :: cs.takeWhile inWord), (cs.takeWhile inWord).length) := by
  have apart {d : Char} (other : inWord d = false) : c ≠ d := by
    rintro rfl
    rw [word] at other
    cases other
  have noOpener : Bracket.ofOpener? c = none := by
    refine List.find?_eq_none.2 fun b _ => ?_
    simpa using (apart (by cases b <;> decide)).symm
  have noCloser : Bracket.ofCloser? c = none := by
    refine List.find?_eq_none.2 fun b _ => ?_
    simpa using (apart (by cases b <;> decide)).symm
  have noBlank : Text.isBlank c ≠ true := by
    intro blank
    simp [inWord, blank] at word
  unfold lexeme
  simp only [number, noOpener, noCloser]
  rw [if_neg (apart (by decide)), if_neg (apart (by decide)), if_neg noBlank, isWordChar_eq_inWord,
    if_pos word]

/-! ## The next token -/

/-- A stray character is a bad token. -/
theorem lexeme_stray (one : c ∈ ['\x27', '\x60', ',', '|']) (cs : List Char) :
    lexeme c cs = (.bad .unrecognized, 0) := by
  have noNumber : numberAfter? c cs = none := by
    simp only [List.mem_cons, List.not_mem_nil, or_false] at one
    unfold numberAfter?
    rcases one with rfl | rfl | rfl | rfl <;> rw [if_neg (by decide), if_neg (by decide)]
  unfold lexeme
  rw [noNumber]
  simp only [List.mem_cons, List.not_mem_nil, or_false] at one
  rcases one with rfl | rfl | rfl | rfl <;> rfl

/-- The next token is the first that the scanner gives. -/
theorem Next.head?_pieces (h : Next rest kind text) : (pieces rest).head? = some ⟨kind, text⟩ := by
  cases h with
  | number longest =>
    cases rest with
    | nil =>
      obtain ⟨⟨sign, whole, fraction, rfl, -, ⟨nonempty, -⟩, -⟩, isFront, -⟩ := longest
      simp [nonempty] at isFront
    | cons c cs =>
      obtain ⟨n, found, -⟩ := exists_numberAfter? longest.fits longest.isFront
      have whole : lexeme c cs = (.number, n) := by rw [lexeme, found]
      rw [pieces_cons, whole, longest.unique (isLongest_numeral found)]
      rfl
  | opener b rest => rw [pieces_opener, List.head?_cons]
  | closer b rest => rw [pieces_closer, List.head?_cons]
  | string first rest => rw [pieces_string first, List.head?_cons]
  | blanks longest =>
    obtain ⟨c, cs, rfl, blank⟩ := longest.head
    rw [pieces_of_isBlank blank, longest.unique (isLongest_run blank cs), List.head?_cons]
  | comment longest =>
    obtain ⟨cs, rfl⟩ : ∃ cs, rest = ';' :: cs := by
      obtain ⟨inside, rfl, -⟩ := longest.fits
      obtain ⟨behind, rfl⟩ := longest.isFront
      exact ⟨inside ++ behind, rfl⟩
    rw [longest.unique (isLongest_comment cs), pieces_cons, lexeme_comment, take_length_takeWhile,
      List.head?_cons]
  | word noNumeral longest isWord =>
    obtain ⟨c, cs, rfl, word⟩ := longest.head
    have number : numberAfter? c cs = none := by
      refine Option.eq_none_iff_forall_ne_some.2 fun n found => ?_
      exact noNumeral _ (isLongest_numeral found).isFront (isLongest_numeral found).fits
    obtain rfl := longest.unique (isLongest_run word cs)
    rw [pieces_cons, lexeme_word number word, take_length_takeWhile, isWord_iff.1 isWord,
      List.head?_cons]
  | stray one rest => rw [pieces_cons, lexeme_stray one, List.head?_cons, List.take_zero]
  | loneQuote missing =>
    rw [pieces_cons, lexeme_quote, if_neg missing, List.head?_cons, List.take_zero]

/-- A text that is not empty has a next token: nothing else is left for bad tokens of one character
than the characters that `Next` names. -/
theorem exists_next (c : Char) (cs : List Char) : ∃ kind text, Next (c :: cs) kind text := by
  cases number : numberAfter? c cs with
  | some n => exact ⟨_, _, .number (isLongest_numeral number)⟩
  | none =>
    by_cases opens : c ∈ Bracket.all.map Bracket.opener
    · obtain ⟨b, -, rfl⟩ := List.mem_map.1 opens
      exact ⟨_, _, .opener b cs⟩
    by_cases closes : c ∈ Bracket.all.map Bracket.closer
    · obtain ⟨b, -, rfl⟩ := List.mem_map.1 closes
      exact ⟨_, _, .closer b cs⟩
    by_cases quote : c = '\x22'
    · subst quote
      by_cases quoted : '\x22' ∈ cs
      · obtain ⟨inside, rest, rfl, first⟩ := List.eq_append_cons_of_mem quoted
        exact ⟨_, _, .string first rest⟩
      · exact ⟨_, _, .loneQuote quoted⟩
    by_cases comment : c = ';'
    · subst comment
      exact ⟨_, _, .comment (isLongest_comment cs)⟩
    by_cases blank : Text.isBlank c = true
    · exact ⟨_, _, .blanks (isLongest_run blank cs)⟩
    by_cases word : inWord c = true
    · refine ⟨_, _, .word ?_ (isLongest_run word cs) (isWord_iff.2 rfl)⟩
      intro front isFront numeral
      obtain ⟨n, found, -⟩ := exists_numberAfter? numeral isFront
      rw [number] at found
      cases found
    · -- a separator that is no bracket and starts neither a string nor a comment
      have stray : c ∈ ['\x27', '\x60', ',', '|'] := by
        simp only [inWord, blank, opens, closes, Bool.and_eq_true, Bool.not_eq_true',
          decide_eq_true_eq, true_and, not_false_eq_true, Decidable.not_not] at word
        simpa [quote, comment] using word
      exact ⟨_, _, .stray stray cs⟩

/-- **The next token, and no other, is the first that the scanner gives.** -/
theorem next_iff : Next rest kind text ↔ (pieces rest).head? = some ⟨kind, text⟩ := by
  refine ⟨Next.head?_pieces, fun first => ?_⟩
  cases rest with
  | nil =>
    rw [pieces_nil] at first
    cases first
  | cons c cs =>
    obtain ⟨kind', text', next⟩ := exists_next c cs
    have same := Option.some.inj (next.head?_pieces.symm.trans first)
    cases same
    exact next

/-- **The scanner meets its specification at every position.** At every boundary of a text with more
text behind it, one token begins, and its kind and its text are the ones, and the only ones, that
`Next` allows there. -/
theorem exists_token_iff_next {source : String} {k : Nat} (boundary : Boundary source k)
    (inside : k < source.utf8ByteSize) : ∃ front rest, source = front ++ rest ∧
      front.utf8ByteSize = k ∧ ∃ t ∈ scan source, t.span.start = k ∧
        ∀ kind text, Next rest.toList kind text.toList ↔ kind = t.kind ∧ text = t.text := by
  obtain ⟨front, rest, rfl, rfl, -, behind⟩ := scan_append_of_boundary boundary
  refine ⟨front, rest, rfl, rfl, ?_⟩
  cases first : pieces rest.toList with
  | nil =>
    -- then nothing is behind the boundary
    have chars := flatMap_chars_pieces rest.toList
    rw [first] at chars
    rw [String.utf8ByteSize_append, ← Text.byteSize_toList rest, ← chars] at inside
    exact absurd inside (Nat.lt_irrefl _)
  | cons p ps =>
    have mem : shift front.utf8ByteSize (ofPiece 0 p) ∈ scan (front ++ rest) := by
      have mem : shift front.utf8ByteSize (ofPiece 0 p) ∈
          (scan rest).map (shift front.utf8ByteSize) := by
        rw [scan, scanFrom_eq_place, first]
        exact List.mem_map_of_mem List.mem_cons_self
      rw [behind] at mem
      exact (List.mem_filter.1 mem).1
    refine ⟨_, mem, Nat.zero_add _, fun kind text => ?_⟩
    rw [next_iff, first, List.head?_cons, Option.some.injEq]
    constructor
    · rintro rfl
      exact ⟨rfl, String.ofList_toList.symm⟩
    · rintro ⟨rfl, rfl⟩
      simp [shift, ofPiece]

/-- A number backs off before a point that no digit follows. -/
theorem next_at_open_fraction :
    (Boundary "x -1.y" 2 ∧ 2 < "x -1.y".utf8ByteSize) ∧
    ∃ front rest, "x -1.y" = front ++ rest ∧ front.utf8ByteSize = 2 ∧
      ∃ t ∈ scan "x -1.y", t.span.start = 2 ∧
        ∀ kind text, Next rest.toList kind text.toList ↔ kind = t.kind ∧ text = t.text := by
  have tokens : scan "x -1.y" = [⟨.name, "x", ⟨0, 1⟩⟩, ⟨.blank, " ", ⟨1, 2⟩⟩,
      ⟨.number, "-1", ⟨2, 4⟩⟩, ⟨.name, ".y", ⟨4, 6⟩⟩] := by decide +kernel
  have boundary : Boundary "x -1.y" 2 :=
    .inr ⟨⟨.blank, " ", ⟨1, 2⟩⟩, by simp [tokens], rfl⟩
  exact ⟨⟨boundary, by decide⟩, exists_token_iff_next boundary (by decide)⟩

end Tyro.Token
