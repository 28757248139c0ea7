import Tyro.Proofs.Form.RoundTrip
import Tyro.Proofs.Token.Ended

/-!
# The names that a definition binds

A structure definition binds names that nobody has written: they are made out of the name of the
structure and the names of its fields, after those were found free to be bound.

* `Token.IsToken.append_name`: a name stays one name with more word characters behind it, so that
  every derived name is one token again.
* `Word.isFree_constructorName`, `Word.isFree_predicateName`, `Word.isFree_accessorName`: no keyword
  and no template is made in this way, except that `check` and a field may make the keyword of a
  test (`Word.accessorName_eq_text`).
* `bound_name_is_read`: every bound name is read as one name. It is parsed as one expression, too,
  unless it is the keyword of a test, and then a structure `check` binds it.
-/

namespace Tyro

/-! ## Names as tokens -/

namespace Token

/-- A character of a word begins neither a bracket nor a string, a comment or a blank. -/
theorem lexeme_of_isWordChar {c : Char} {cs : List Char} (number : numberAfter? c cs = none)
    (word : isWordChar c = true) :
    lexeme c cs = (wordKind (c :: cs.takeWhile isWordChar), (cs.takeWhile isWordChar).length) := by
  have ne {d : Char} (h : isWordChar d = false) : c ≠ d := by
    rintro rfl
    rw [word] at h
    cases h
  have noOpener : Bracket.ofOpener? c = none := by
    refine List.find?_eq_none.2 fun b _ => ?_
    simpa using (ne (by cases b <;> decide)).symm
  have noCloser : Bracket.ofCloser? c = none := by
    refine List.find?_eq_none.2 fun b _ => ?_
    simpa using (ne (by cases b <;> decide)).symm
  have notBlank : ¬ Text.isBlank c = true := by
    intro blank
    simp [isWordChar, blank] at word
  unfold lexeme
  simp only [number, noOpener, noCloser]
  rw [if_neg (ne (by decide)), if_neg (ne (by decide)), if_neg notBlank, if_pos word]

/-- Only a word is a name, and not one that begins as a number. -/
theorem lexeme_fst_eq_name {c : Char} {cs : List Char} (h : (lexeme c cs).1 = .name) :
    numberAfter? c cs = none ∧ isWordChar c = true := by
  unfold lexeme at h
  split at h
  · cases h
  · next number =>
    refine ⟨number, ?_⟩
    split at h
    · cases h
    · cases h
    · split at h
      · dsimp only at h
        split at h <;> cases h
      · split at h
        · cases h
        · split at h
          · cases h
          · split at h
            · next word => exact word
            · cases h

/-- A name is a word of the kind of names that does not begin as a number. -/
theorem isToken_name_iff {c : Char} {cs : List Char} :
    IsToken .name (c :: cs) ↔
      numberAfter? c cs = none ∧ (∀ d ∈ c :: cs, isWordChar d = true) ∧
        wordKind (c :: cs) = .name := by
  constructor
  · intro h
    obtain ⟨number, first⟩ := lexeme_fst_eq_name (congrArg Prod.fst h)
    rw [IsToken, lexeme_of_isWordChar number first] at h
    obtain ⟨kind, length⟩ := Prod.mk.inj h
    have all := (List.takeWhile_prefix (l := cs) isWordChar).eq_of_length length
    rw [all] at kind
    exact ⟨number, List.forall_mem_cons.2 ⟨first, List.takeWhile_eq_self_iff.1 all⟩, kind⟩
  · rintro ⟨number, word, kind⟩
    obtain ⟨first, others⟩ := List.forall_mem_cons.1 word
    rw [IsToken, lexeme_of_isWordChar number first, List.takeWhile_eq_self_iff.2 others, kind]

/-- A longer word is a name if it does not begin with a hash sign. -/
theorem wordKind_of_head_ne {c d : Char} (hash : c ≠ '#') (cs : List Char) :
    wordKind (c :: d :: cs) = .name := by
  have noBoolean : c :: d :: cs ∉ booleanWords := by
    simp [booleanWords, hash]
  rw [wordKind, if_neg (by simp), if_neg noBoolean, if_neg (by simpa using hash)]

/-- A name does not begin with a hash sign. -/
theorem head_ne_of_wordKind {c : Char} {cs : List Char} (h : wordKind (c :: cs) = .name) :
    c ≠ '#' := by
  rintro rfl
  unfold wordKind at h
  split at h
  · cases h
  · split at h
    · cases h
    · rw [List.head?_cons, if_pos rfl] at h
      cases h

/-- **A name with more behind it** is a name: word characters, the first of which is no digit, go on
with it. -/
theorem IsToken.append_name {cs more : List Char} (h : IsToken .name cs) {d : Char}
    (digit : d.isDigit = false) (word : ∀ e ∈ d :: more, isWordChar e = true) :
    IsToken .name (cs ++ d :: more) := by
  cases cs with
  | nil => exact h.elim
  | cons c cs =>
    obtain ⟨number, inside, kind⟩ := isToken_name_iff.1 h
    have longer : numberAfter? c (cs ++ d :: more) = none := by
      cases cs with
      | nil =>
        have first : c.isDigit = false := by
          refine eq_false_of_ne_true fun first => ?_
          rw [numberAfter?, if_pos first] at number
          cases number
        simp [numberAfter?, first, digit]
      | cons e cs => exact numberAfter?_append_eq_none number (List.cons_ne_nil e cs) _
    have joined : wordKind (c :: (cs ++ d :: more)) = .name := by
      obtain ⟨e, rest, split⟩ := List.exists_cons_of_ne_nil (List.append_ne_nil_of_right_ne_nil cs
        (List.cons_ne_nil d more))
      rw [split]
      exact wordKind_of_head_ne (head_ne_of_wordKind kind) rest
    exact isToken_name_iff.2 ⟨longer, List.forall_mem_append.2 ⟨inside, word⟩, joined⟩

/-- All characters of a name are word characters. -/
theorem IsToken.isWordChar_of_mem {cs : List Char} (h : IsToken .name cs) :
    ∀ c ∈ cs, isWordChar c = true := by
  cases cs with
  | nil => exact List.forall_mem_nil _
  | cons c cs => exact (isToken_name_iff.1 h).2.1

/-- A hyphen and a name may follow a name. -/
theorem IsToken.hyphen {cs ds : List Char} (h : IsToken .name cs) (h' : IsToken .name ds) :
    IsToken .name (cs ++ '-' :: ds) :=
  h.append_name (by decide) (List.forall_mem_cons.2 ⟨by decide, h'.isWordChar_of_mem⟩)

end Token

/-! ## Derived names and reserved words -/

namespace Word

open Token

variable {struct field : String}

/-- A word that begins a test is a keyword. -/
theorem exists_keyword_of_isCheck {word : String} (h : isCheck word = true) :
    ∃ k, of word = .keyword k := by
  unfold isCheck at h
  split at h
  · next k keyword => exact ⟨k, keyword⟩
  · cases h

/-- The constructor of a structure has a free name. -/
theorem isFree_constructorName (struct : String) : IsFree (constructorName struct) := by
  have front : (constructorName struct).toList = "make-".toList ++ struct.toList := by
    rw [constructorName, String.toList_append]
  constructor
  · intro template
    have start : ∀ dots ∈ templates, dots.toList.head? ≠ some 'm' := by decide
    exact start _ template (by rw [front]; rfl)
  · intro k same
    have start : ∀ k : Keyword, k.text.toList.head? ≠ some 'm' := by
      intro k
      cases k <;> decide
    exact start k (by rw [same, front]; rfl)

/-- The predicate of a structure has a free name. -/
theorem isFree_predicateName (struct : String) : IsFree (predicateName struct) := by
  have back : (predicateName struct).toList.getLast? = some '?' := by
    rw [predicateName, String.toList_append]
    exact List.getLast?_concat
  constructor
  · intro template
    have last : ∀ dots ∈ templates, dots.toList.getLast? ≠ some '?' := by decide
    exact last _ template back
  · intro k same
    have last : ∀ k : Keyword, k.text.toList.getLast? ≠ some '?' := by
      intro k
      cases k <;> decide
    exact last k (by rw [same, back])

/-- The characters of an accessor's name. -/
theorem toList_accessorName (struct field : String) :
    (accessorName struct field).toList = struct.toList ++ '-' :: field.toList := by
  rw [accessorName, String.toList_append, String.toList_append, List.append_assoc]
  rfl

/-- Keywords have at most one hyphen. -/
theorem count_hyphen_text_le (k : Keyword) : k.text.toList.count '-' ≤ 1 := by
  cases k <;> decide

/-- What stands before the hyphen of a keyword is a keyword, or it is `check` and the keyword begins
a test. -/
theorem takeWhile_text (k : Keyword) :
    (∃ k' : Keyword, k'.text.toList = k.text.toList.takeWhile (· ≠ '-')) ∨
      (k.isCheck = true ∧ k.text.toList.takeWhile (· ≠ '-') = "check".toList) := by
  cases k with
  | define | defineStruct => exact .inl ⟨.define, by decide⟩
  | ifWord => exact .inl ⟨.ifWord, by decide⟩
  | cond => exact .inl ⟨.cond, by decide⟩
  | elseWord => exact .inl ⟨.elseWord, by decide⟩
  | and => exact .inl ⟨.and, by decide⟩
  | or => exact .inl ⟨.or, by decide⟩
  | checkExpect | checkWithin | checkError => exact .inr ⟨rfl, by decide⟩

/-- **An accessor that is a keyword.** The structure is called `check`, and the keyword begins a
test. -/
theorem accessorName_eq_text {k : Keyword} (free : IsFree struct)
    (same : accessorName struct field = k.text) : k.isCheck = true ∧ struct = "check" := by
  have chars : k.text.toList = struct.toList ++ '-' :: field.toList := by
    rw [← same, toList_accessorName]
  -- the hyphen of the keyword is the one between the two names
  have hyphen : '-' ∉ struct.toList := by
    intro inside
    have atLeastOne := List.one_le_count_iff.2 inside
    have le := count_hyphen_text_le k
    rw [chars, List.count_append, List.count_cons_self] at le
    omega
  have before : k.text.toList.takeWhile (· ≠ '-') = struct.toList := by
    rw [chars, takeWhile_ne_append hyphen]
  rcases takeWhile_text k with ⟨k', text⟩ | ⟨check, text⟩
  · rw [before] at text
    exact absurd (String.toList_inj.1 text) (free.2 k')
  · rw [before] at text
    exact ⟨check, String.toList_inj.1 text⟩

/-- An accessor has a free name, unless its structure is called `check` and the name begins a
test. -/
theorem isFree_accessorName (free : IsFree struct) :
    IsFree (accessorName struct field) ∨
      isCheck (accessorName struct field) = true ∧ struct = "check" := by
  have noTemplate : accessorName struct field ∉ templates := by
    intro template
    have points : ∀ dots ∈ templates, '-' ∉ dots.toList := by decide
    refine points _ template ?_
    rw [toList_accessorName]
    exact List.mem_append_right _ List.mem_cons_self
  by_cases keyword : ∃ k : Keyword, k.text = accessorName struct field
  · obtain ⟨k, same⟩ := keyword
    obtain ⟨check, rfl⟩ := accessorName_eq_text free same.symm
    refine .inr ⟨?_, rfl⟩
    rw [← same]
    simp only [isCheck, of_text]
    exact check
  · exact .inl ⟨noTemplate, fun k same => keyword ⟨k, same⟩⟩

end Word

/-! ## Bound names -/

open Token

namespace Definition

variable {s : Sexp} {d : Definition} {n : String}

/-- A legible name is a token. -/
theorem isToken_of_legible {word : String} (h : (Sexp.name word).Legible) :
    IsToken .name word.toList := by
  cases h with
  | name token => exact token

/-- Every name that a structure derives from names is one token. -/
theorem isToken_of_mem_structNames {struct : String} {fields : List String}
    (token : IsToken .name struct.toList) (tokens : ∀ f ∈ fields, IsToken .name f.toList)
    (mem : n ∈ structNames struct fields) : IsToken .name n.toList := by
  simp only [structNames, List.cons_append, List.mem_cons, List.mem_append, List.mem_map,
    List.not_mem_nil, or_false] at mem
  rcases mem with rfl | ⟨f, field, rfl⟩ | rfl
  · have make : IsToken .name "make".toList := by decide
    rw [constructorName, String.toList_append]
    exact make.hyphen token
  · rw [Word.toList_accessorName]
    exact token.hyphen (tokens f field)
  · rw [predicateName, String.toList_append]
    exact token.append_name (by decide) (List.forall_mem_singleton.2 (by decide))

/-- Every name that a structure derives from free names is free, unless the structure is called
`check` and the name begins a test. -/
theorem isFree_of_mem_structNames {struct : String} {fields : List String}
    (free : Word.IsFree struct) (mem : n ∈ structNames struct fields) :
    Word.IsFree n ∨ Word.isCheck n = true ∧ struct = "check" := by
  simp only [structNames, List.cons_append, List.mem_cons, List.mem_append, List.mem_map,
    List.not_mem_nil, or_false] at mem
  rcases mem with rfl | ⟨f, -, rfl⟩ | rfl
  · exact .inl (Word.isFree_constructorName struct)
  · exact Word.isFree_accessorName free
  · exact .inl (Word.isFree_predicateName struct)

/-- Every name that a definition of the grammar binds is one token, and free, unless a structure
`check` binds the keyword of a test. -/
theorem isToken_of_mem_boundNames (legible : s.Legible) (h : s.DenotesForm (.definition d))
    (bound : n ∈ d.boundNames) :
    IsToken .name n.toList ∧
      (Word.IsFree n ∨ Word.isCheck n = true ∧ ∃ fields, d = .struct "check" fields) := by
  cases h with
  | constant free h =>
    cases List.mem_singleton.1 bound
    cases legible with
    | list items => exact ⟨isToken_of_legible (items _ (by simp)), .inl free⟩
  | @function _ params body e free nonempty allFree distinct h =>
    cases List.mem_singleton.1 bound
    cases legible with
    | list items =>
      cases items (.list (.name n :: params.map .name)) (by simp) with
      | list parts => exact ⟨isToken_of_legible (parts _ List.mem_cons_self), .inl free⟩
  | @struct name fields free nonempty allFree distinct =>
    cases legible with
    | list items =>
      cases items (.list (fields.map .name)) (by simp) with
      | list parts =>
        have tokens : ∀ f ∈ fields, IsToken .name f.toList := fun f mem =>
          isToken_of_legible (parts _ (List.mem_map_of_mem mem))
        have token := isToken_of_legible (items (.name name) (by simp))
        refine ⟨isToken_of_mem_structNames token tokens bound, ?_⟩
        rcases isFree_of_mem_structNames free bound with free | ⟨check, rfl⟩
        · exact .inl free
        · exact .inr ⟨check, fields, rfl⟩

/-- **Bound names are read as names.** Whatever a text defines, each name that is bound is by itself
the text of that one name. It is parsed as one expression, the name, exactly if it is not the
keyword of a test, and only a structure called `check` binds such a keyword. -/
theorem bound_name_is_read {source : String} (parsed : .definition d ∈ Form.ofText source)
    (bound : n ∈ d.boundNames) :
    (Sexp.ofText n).map (·.sexp) = [.name n] ∧
      (Form.ofText n = [.expression (.name n)] ↔ Word.isCheck n = false) ∧
      (Word.isCheck n = true → ∃ fields, d = .struct "check" fields) := by
  obtain ⟨datum, mem, form⟩ := List.mem_map.1 parsed
  have accepted : ¬ (Form.ofSexp datum.sexp).IsMalformed := by
    rw [form]
    exact not_false
  have denotes := form ▸ Form.denotesForm_of_ofSexp rfl accepted
  obtain ⟨token, free⟩ := isToken_of_mem_boundNames (Sexp.legible_ofText mem) denotes bound
  have read := (Sexp.spells_name token).ofText
  have alone : Form.ofText n = [Form.ofExpression (Expr.ofWord n)] := by
    calc
      Form.ofText n = [Form.ofSexp (.name n)] := Form.ofText_of_read read
      _ = [Form.ofExpression (Expr.ofWord n)] := by
        rw [Form.ofSexp, Expr.ofSexp] <;> simp
  refine ⟨read, ?_, ?_⟩
  · rw [alone]
    constructor
    · intro expression
      refine eq_false_of_ne_true fun check => ?_
      rw [Expr.ofWord] at expression
      obtain ⟨k, keyword⟩ := Word.exists_keyword_of_isCheck check
      cases k <;> simp [keyword, Expr.fault, Form.ofExpression] at expression
    · intro noCheck
      rcases free with free | ⟨check, -⟩
      · rw [Expr.ofWord, Word.of_eq_free_iff.2 free]
        rfl
      · rw [noCheck] at check
        cases check
  · intro check
    rcases free with free | ⟨-, struct⟩
    · rw [Word.isCheck, Word.of_eq_free_iff.2 free] at check
      cases check
    · exact struct

/-- A structure called `check` may bind names that can be used. -/
theorem bound_name_is_read_of_check_point :
    .definition (.struct "check" ["point"]) ∈ Form.ofText "(define-struct check (point))" ∧
      "check-point" ∈ boundNames (.struct "check" ["point"]) ∧
      Form.ofText "check-point" = [.expression (.name "check-point")] := by
  have read : (Sexp.ofText "(define-struct check (point))").map (·.sexp) =
      [.list [.name "define-struct", .name "check", .list [.name "point"]]] := by decide +kernel
  have whole : Form.ofText "(define-struct check (point))" =
      [.definition (.struct "check" ["point"])] := Form.ofText_of_read read
  have parsed : .definition (.struct "check" ["point"]) ∈
      Form.ofText "(define-struct check (point))" := whole ▸ List.mem_cons_self
  have bound : "check-point" ∈ boundNames (.struct "check" ["point"]) := by decide
  exact ⟨parsed, bound, (bound_name_is_read parsed bound).2.1.2 (by decide)⟩

/-- A field called `expect` in a structure called `check` gives an accessor that cannot be used. -/
theorem bound_name_not_read :
    .definition (.struct "check" ["expect"]) ∈ Form.ofText "(define-struct check (expect))" ∧
      "check-expect" ∈ boundNames (.struct "check" ["expect"]) ∧
      Form.ofText "check-expect" ≠ [.expression (.name "check-expect")] := by
  have read : (Sexp.ofText "(define-struct check (expect))").map (·.sexp) =
      [.list [.name "define-struct", .name "check", .list [.name "expect"]]] := by decide +kernel
  have whole : Form.ofText "(define-struct check (expect))" =
      [.definition (.struct "check" ["expect"])] := Form.ofText_of_read read
  refine ⟨whole ▸ List.mem_cons_self, by decide, ?_⟩
  have word : (Sexp.ofText "check-expect").map (·.sexp) = [.name "check-expect"] := by
    decide +kernel
  have keyword : Form.ofText "check-expect" = [.malformed (.expression (.form
      ⟨.keyword .checkExpect, .expected (.parenthesisBefore "check-expect") .none,
        .name "check-expect"⟩))] := Form.ofText_of_read word
  rw [keyword]
  intro same
  cases same

end Definition

end Tyro
