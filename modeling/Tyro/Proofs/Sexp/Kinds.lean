import Tyro.Proofs.Editor.Balance
import Tyro.Proofs.Sexp.Compact

/-!
# Kinds of bracket

The three kinds of bracket have to match and mean the same. `Token.rounded` is what is left of a
token where all kinds count as one: tokens with the same rounded tokens have the same stack of
brackets at every place (`openAt_of_rounded`), as the stack does not look at kinds.

* `Pairs ts i j bracket other`: the bracket at place `j` pops the one at place `i`. Each bracket is
  in one pair at most (`Pairs.unique`). `Matched` says that the kinds of all pairs agree.
* `matched_of_isClean`: a pair of different kinds leaves an error, whatever is read around it.
* `map_readAll_of_rounded`: with kinds that match and without errors, the rounded tokens decide what
  is read. The proof follows `Spans`, `Between` and `Outside`, which say it by the stack.
* `Pairs.map_readAll_set` replaces the two brackets of one pair.
-/

namespace Tyro

/-! ## Tokens but for the kinds of brackets -/

namespace Token

/-- The kind and the text of a token, where every bracket counts as a round one. -/
def rounded (t : Token) : TokenKind × String :=
  match t.kind with
  | .opener _ => (.opener .round, String.singleton Bracket.round.opener)
  | .closer _ => (.closer .round, String.singleton Bracket.round.closer)
  | kind => (kind, t.text)

/-- Tokens that are the same when rounded both open, both close, or have one kind and text. -/
theorem rounded_cases {t u : Token} (same : t.rounded = u.rounded) :
    (∃ b c, t.kind = .opener b ∧ u.kind = .opener c) ∨
      (∃ b c, t.kind = .closer b ∧ u.kind = .closer c) ∨ t.kind = u.kind ∧ t.text = u.text := by
  unfold rounded at same
  cases kind : t.kind <;> cases kind' : u.kind <;> simp_all

/-- Opening brackets are the same when rounded. -/
theorem rounded_of_opener {t : Token} {bracket : Bracket} (opens : t.kind = .opener bracket) :
    t.rounded = (.opener .round, String.singleton Bracket.round.opener) := by
  simp [rounded, opens]

/-- Closing brackets are the same when rounded. -/
theorem rounded_of_closer {t : Token} {bracket : Bracket} (closes : t.kind = .closer bracket) :
    t.rounded = (.closer .round, String.singleton Bracket.round.closer) := by
  simp [rounded, closes]

end Token

namespace Sexp

/-- A clean S-expression has no fault of brackets. -/
theorem IsClean.balanced {sexp : Sexp} (clean : sexp.IsClean) : ¬ sexp.Unbalanced :=
  fun ⟨e, inside, _⟩ => clean e inside

end Sexp

namespace Reader

variable {ts us : List Token} {i j k n p : Nat} {t u : Token} {sexp : Sexp}
  {bracket other : Bracket}

/-! ## Pairs of brackets -/

/-- The closing bracket at the second place pops the opening bracket at the first. -/
structure Pairs (ts : List Token) (i j : Nat) (bracket other : Bracket) : Prop where
  opener : ts[i]?.map Token.kind = some (.opener bracket)
  closer : ts[j]?.map Token.kind = some (.closer other)
  top : (openAt ts j).head? = some i

/-- Every closing bracket is of the kind of the one that it pops. -/
def Matched (ts : List Token) : Prop :=
  ∀ i j bracket other, Pairs ts i j bracket other → bracket = other

/-- One token pushes its place or takes from the top of the stack. -/
theorem openAt_cases (ts : List Token) (n : Nat) :
    openAt ts (n + 1) = n :: openAt ts n ∨ openAt ts (n + 1) <:+ openAt ts n := by
  rw [openAt]
  split
  · exact .inl rfl
  · exact .inr (List.tail_suffix _)
  · exact .inr (List.suffix_refl _)

/-- The stack holds earlier places. -/
theorem lt_of_mem_openAt (mem : p ∈ openAt ts n) : p < n := by
  induction n with
  | zero => cases mem
  | succ n ih =>
    rcases openAt_cases ts n with pushed | taken
    · rw [pushed] at mem
      rcases List.mem_cons.1 mem with rfl | mem
      · exact Nat.lt_succ_self p
      · exact Nat.lt_succ_of_lt (ih mem)
    · exact Nat.lt_succ_of_lt (ih (taken.subset mem))

/-- The stack holds no place twice. -/
theorem nodup_openAt (ts : List Token) (n : Nat) : (openAt ts n).Nodup := by
  induction n with
  | zero => exact List.nodup_nil
  | succ n ih =>
    rcases openAt_cases ts n with pushed | taken
    · rw [pushed]
      exact List.nodup_cons.2 ⟨fun mem => Nat.lt_irrefl n (lt_of_mem_openAt mem), ih⟩
    · exact ih.sublist taken.sublist

/-- A place that has left the stack does not come back. -/
theorem not_mem_openAt_of_le (gone : p ∉ openAt ts n) (lt : p < n) (le : n ≤ k) :
    p ∉ openAt ts k := by
  induction le with
  | refl => exact gone
  | @step m le ih =>
    intro mem
    rcases openAt_cases ts m with pushed | taken
    · rw [pushed] at mem
      rcases List.mem_cons.1 mem with rfl | mem
      · exact absurd lt (Nat.not_lt_of_le le)
      · exact ih mem
    · exact ih (taken.subset mem)

/-- The opening bracket of a pair stands before the closing one. -/
theorem Pairs.lt (pair : Pairs ts i j bracket other) : i < j :=
  lt_of_mem_openAt (List.mem_of_head? pair.top)

/-- Behind its pair a bracket is not on the stack any more. -/
theorem Pairs.not_mem_openAt (pair : Pairs ts i j bracket other) (lt : j < k) :
    i ∉ openAt ts k := by
  obtain ⟨closed, found, closes⟩ := Option.map_eq_some_iff.1 pair.closer
  obtain ⟨rest, stack⟩ := List.head?_eq_some_iff.1 pair.top
  have nodup := nodup_openAt ts j
  rw [stack] at nodup
  have gone : i ∉ openAt ts (j + 1) := by
    rw [openAt_closer found closes, stack]
    exact (List.nodup_cons.1 nodup).1
  exact not_mem_openAt_of_le gone (Nat.lt_succ_of_lt pair.lt) lt

/-- **A bracket is popped once.** -/
theorem Pairs.unique {bracket' other' : Bracket} (pair : Pairs ts i j bracket other)
    (pair' : Pairs ts i k bracket' other') : j = k := by
  rcases Nat.lt_trichotomy j k with lt | same | lt
  · exact absurd (List.mem_of_head? pair'.top) (pair.not_mem_openAt lt)
  · exact same
  · exact absurd (List.mem_of_head? pair.top) (pair'.not_mem_openAt lt)

/-- A fault of brackets between two places stays in all that is read. -/
theorem Spans.unbalanced (spans : Spans ts i j sexp) (bad : sexp.Unbalanced) :
    ∃ d ∈ Sexp.readAll ts, d.sexp.Unbalanced := by
  have all : run [] ts = (after ts j).2 ++ run (after ts j).1 (ts.drop j) := by
    rw [after, ← run_append, List.take_append_drop]
  have delivers := spans.delivers.2
  unfold Delivers at delivers
  have kept : ∃ d ∈ run [] ts, d.sexp.Unbalanced := by
    rw [all, delivers]
    rcases unbalanced_deliver bad (ts.extract i j).reverse (after ts i).1 with
      ⟨g, mem, item, inside, bad⟩ | ⟨d, out, bad⟩
    · obtain ⟨d, later, bad⟩ := unbalanced_of_mem_items mem inside bad (ts.drop j)
      exact ⟨d, List.mem_append_right _ later, bad⟩
    · have here := List.mem_append_right (after ts i).2 (Option.mem_toList.2 out)
      exact ⟨d, List.mem_append_left _ here, bad⟩
  obtain ⟨d, mem, bad⟩ := kept
  exact ⟨_, List.mem_map_of_mem mem, bad⟩

/-- **A pair of different kinds leaves an error.** -/
theorem matched_of_isClean (clean : ∀ d ∈ Sexp.readAll ts, d.sexp.IsClean) : Matched ts := by
  intro i j bracket other pair
  by_contra differ
  obtain ⟨opened, foundOpened, opens⟩ := Option.map_eq_some_iff.1 pair.opener
  obtain ⟨closed, found, closes⟩ := Option.map_eq_some_iff.1 pair.closer
  have spans := Spans.mismatched foundOpened opens found closes differ pair.top
  obtain ⟨d, mem, bad⟩ := spans.unbalanced (Sexp.unbalanced_error_iff.2 trivial)
  exact (clean d mem).balanced bad

/-! ## Rounded tokens decide -/

section Rounded

variable (rounded : ts.map Token.rounded = us.map Token.rounded)

include rounded

/-- There is a token at the same place, the same when rounded. -/
theorem getElem?_of_rounded (found : ts[n]? = some t) :
    ∃ u, us[n]? = some u ∧ t.rounded = u.rounded := by
  have place := congrArg (·[n]?) rounded
  simp only [List.getElem?_map, found, Option.map_some] at place
  obtain ⟨u, found', same⟩ := Option.map_eq_some_iff.1 place.symm
  exact ⟨u, found', same.symm⟩

/-- The stack does not depend on the kinds of brackets. -/
theorem openAt_of_rounded (n : Nat) : openAt us n = openAt ts n := by
  induction n with
  | zero => rfl
  | succ n ih =>
    cases found : ts[n]? with
    | none =>
      have short : us[n]? = none := by
        have length := congrArg List.length rounded
        rw [List.length_map, List.length_map] at length
        rw [List.getElem?_eq_none_iff] at found ⊢
        omega
      simp only [openAt, found, short, Option.map_none, ih]
    | some t =>
      obtain ⟨u, found', same⟩ := getElem?_of_rounded rounded found
      rcases Token.rounded_cases same with ⟨b, c, kind, kind'⟩ | ⟨b, c, kind, kind'⟩ | ⟨kind, -⟩
      · rw [openAt_opener found kind, openAt_opener found' kind', ih]
      · rw [openAt_closer found kind, openAt_closer found' kind', ih]
      · simp only [openAt, found, found', Option.map_some, kind, ih]

end Rounded

/-- A token that stands for a clean S-expression stands for it by its kind and text. -/
theorem StandsFor.of_rounded (stands : StandsFor t sexp) (clean : sexp.IsClean)
    (same : t.rounded = u.rounded) : StandsFor u sexp := by
  rcases Token.rounded_cases same with ⟨b, c, kind, -⟩ | ⟨b, c, kind, -⟩ | ⟨kind, text⟩
  · cases stands <;> simp_all
  · cases stands <;> simp_all
  · cases stands with
    | number isNumber read => exact .number (kind ▸ isNumber) (text ▸ read)
    | tooLarge _ _ => exact absurd clean (Sexp.not_isClean_error _)
    | string isString =>
      rw [text]
      exact .string (kind ▸ isString)
    | boolean isBoolean =>
      rw [text]
      exact .boolean (kind ▸ isBoolean)
    | name isName =>
      rw [text]
      exact .name (kind ▸ isName)
    | bad _ => exact absurd clean (Sexp.not_isClean_error _)

/-- A token that is the same as a blank one when rounded is blank. -/
theorem blank_of_rounded (same : t.rounded = u.rounded) (blank : t.kind = .blank) :
    u.kind = .blank := by
  rcases Token.rounded_cases same with ⟨b, c, kind, -⟩ | ⟨b, c, kind, -⟩ | ⟨kind, -⟩
  · simp_all
  · simp_all
  · rw [← kind, blank]

/-- A token that is the same as an opening bracket when rounded is one. -/
theorem opener_of_rounded (same : t.rounded = u.rounded) (opens : t.kind = .opener bracket) :
    ∃ c, u.kind = .opener c := by
  rcases Token.rounded_cases same with ⟨b, c, -, kind⟩ | ⟨b, c, kind, -⟩ | ⟨kind, -⟩
  · exact ⟨c, kind⟩
  · simp_all
  · exact ⟨bracket, by rw [← kind, opens]⟩

/-- A token that is the same as a closing bracket when rounded is one. -/
theorem closer_of_rounded (same : t.rounded = u.rounded) (closes : t.kind = .closer bracket) :
    ∃ c, u.kind = .closer c := by
  rcases Token.rounded_cases same with ⟨b, c, kind, -⟩ | ⟨b, c, -, kind⟩ | ⟨kind, -⟩
  · simp_all
  · exact ⟨c, kind⟩
  · exact ⟨bracket, by rw [← kind, closes]⟩

mutual

/-- What is read from one place up to another without an error, is read there from the other tokens
as well. -/
theorem Spans.of_rounded (rounded : ts.map Token.rounded = us.map Token.rounded)
    (matched : Matched us) {i j : Nat} {sexp : Sexp} :
    Spans ts i j sexp → sexp.IsClean → Spans us i j sexp
  | .single found stands, clean => by
    obtain ⟨u, found', same⟩ := getElem?_of_rounded rounded found
    exact .single found' (stands.of_rounded clean same)
  | @Spans.list _ _ j _ _ _ _ foundOpened opens found closes top between, clean => by
    obtain ⟨opened', foundOpened', same⟩ := getElem?_of_rounded rounded foundOpened
    obtain ⟨closed', found', same'⟩ := getElem?_of_rounded rounded found
    obtain ⟨bracket', opens'⟩ := opener_of_rounded same opens
    obtain ⟨other', closes'⟩ := closer_of_rounded same' closes
    rw [← openAt_of_rounded rounded j] at top
    have kinds : bracket' = other' :=
      matched _ _ _ _ ⟨by rw [foundOpened', Option.map_some, opens'],
        by rw [found', Option.map_some, closes'], top⟩
    subst kinds
    exact .list foundOpened' opens' found' closes' top
      (between.of_rounded rounded matched (Sexp.isClean_list_iff.1 clean))
  | .mismatched _ _ _ _ _ _, clean => absurd clean (Sexp.not_isClean_error _)

/-- The same of what stands inside a group. -/
theorem Between.of_rounded (rounded : ts.map Token.rounded = us.map Token.rounded)
    (matched : Matched us) {i j : Nat} {items : List Sexp} :
    Between ts i j items → (∀ item ∈ items, item.IsClean) → Between us i j items
  | .nil i, _ => .nil i
  | .blank before found blank, clean => by
    obtain ⟨u, found', same⟩ := getElem?_of_rounded rounded found
    exact (before.of_rounded rounded matched clean).blank found' (blank_of_rounded same blank)
  | .item before spans, clean => by
    obtain ⟨first, last⟩ := List.forall_mem_append.1 clean
    exact (before.of_rounded rounded matched first).item
      (spans.of_rounded rounded matched (List.forall_mem_singleton.1 last))

end

/-- The same of what stands at the top level. -/
theorem Outside.of_rounded (rounded : ts.map Token.rounded = us.map Token.rounded)
    (matched : Matched us) {sexps : List Sexp} (h : Outside ts n sexps)
    (clean : ∀ sexp ∈ sexps, sexp.IsClean) : Outside us n sexps := by
  induction h with
  | nil => exact .nil
  | blank _ found blank ih =>
    obtain ⟨u, found', same⟩ := getElem?_of_rounded rounded found
    exact (ih clean).blank found' (blank_of_rounded same blank)
  | stray _ _ _ _ _ =>
    have stray := (List.forall_mem_append.1 clean).2
    exact absurd (List.forall_mem_singleton.1 stray) (Sexp.not_isClean_error _)
  | sexp _ spans ih =>
    obtain ⟨first, last⟩ := List.forall_mem_append.1 clean
    exact (ih first).sexp (spans.of_rounded rounded matched (List.forall_mem_singleton.1 last))

/-- **Kinds that match mean the same.** Tokens that are the same when rounded are read as the same
S-expressions, if those of the first have no error and the kinds of the second match. -/
theorem map_readAll_of_rounded (rounded : ts.map Token.rounded = us.map Token.rounded)
    (clean : ∀ d ∈ Sexp.readAll ts, d.sexp.IsClean) (matched : Matched us) :
    (Sexp.readAll us).map (·.sexp) = (Sexp.readAll ts).map (·.sexp) := by
  rw [map_readAll_eq_iff]
  have length := congrArg List.length rounded
  rw [List.length_map, List.length_map] at length
  have clean' : ∀ sexp ∈ (Sexp.readAll ts).map (·.sexp), sexp.IsClean := List.forall_mem_map.2 clean
  generalize eq : (Sexp.readAll ts).map (·.sexp) = sexps at clean' ⊢
  cases map_readAll_eq_iff.1 eq with
  | closed outside =>
    rw [length] at outside
    exact .closed (outside.of_rounded rounded matched clean')
  | unclosed _ _ =>
    have last := (List.forall_mem_append.1 clean').2
    exact absurd (List.forall_mem_singleton.1 last) (Sexp.not_isClean_error _)

/-! ## Another kind for one pair -/

/-- Tokens are the same when rounded if one of them is replaced by one that is. -/
theorem map_rounded_set (found : ts[i]? = some t) (same : t.rounded = u.rounded) :
    (ts.set i u).map Token.rounded = ts.map Token.rounded := by
  obtain ⟨lt, rfl⟩ := List.getElem?_eq_some_iff.1 found
  have lt' : i < (ts.map Token.rounded).length := by rwa [List.length_map]
  have here : (ts.map Token.rounded)[i] = u.rounded := by rw [List.getElem_map, same]
  rw [List.map_set, ← here, List.set_getElem_self]

section Replaced

variable (pair : Pairs ts i j bracket other) {opened closed : Token} {kind : Bracket}
  (opens : opened.kind = .opener kind) (closes : closed.kind = .closer kind)

include pair opens closes

/-- Tokens are the same when rounded if a pair is replaced by one of another kind. -/
theorem Pairs.map_rounded_set :
    ((ts.set i opened).set j closed).map Token.rounded = ts.map Token.rounded := by
  obtain ⟨opened', foundOpened, opens'⟩ := Option.map_eq_some_iff.1 pair.opener
  obtain ⟨closed', found, closes'⟩ := Option.map_eq_some_iff.1 pair.closer
  have found' : (ts.set i opened)[j]? = some closed' := by
    rw [List.getElem?_set_ne (Nat.ne_of_lt pair.lt), found]
  have same := (Token.rounded_of_opener opens').trans (Token.rounded_of_opener opens).symm
  have same' := (Token.rounded_of_closer closes').trans (Token.rounded_of_closer closes).symm
  rw [Reader.map_rounded_set found' same', Reader.map_rounded_set foundOpened same]

/-- Kinds still match if a pair is replaced by one of another kind: the pairs are the same. -/
theorem Matched.set (matched : Matched ts) : Matched ((ts.set i opened).set j closed) := by
  obtain ⟨opened', foundOpened, -⟩ := Option.map_eq_some_iff.1 pair.opener
  obtain ⟨closed', found, -⟩ := Option.map_eq_some_iff.1 pair.closer
  have atFirst : ((ts.set i opened).set j closed)[i]? = some opened := by
    rw [List.getElem?_set_ne (Nat.ne_of_gt pair.lt), List.getElem?_set_self]
    exact (List.getElem?_eq_some_iff.1 foundOpened).1
  have atSecond : ((ts.set i opened).set j closed)[j]? = some closed := by
    rw [List.getElem?_set_self]
    rw [List.length_set]
    exact (List.getElem?_eq_some_iff.1 found).1
  have elsewhere (n : Nat) (first : n ≠ i) (second : n ≠ j) :
      ((ts.set i opened).set j closed)[n]? = ts[n]? := by
    rw [List.getElem?_set_ne second.symm, List.getElem?_set_ne first.symm]
  intro k l bracket' other' pair'
  obtain ⟨opener, closer, top⟩ := pair'
  rw [openAt_of_rounded (pair.map_rounded_set opens closes).symm] at top
  by_cases last : l = j
  · subst last
    rw [pair.top, Option.some.injEq] at top
    subst top
    rw [atFirst, Option.map_some, opens] at opener
    rw [atSecond, Option.map_some, closes] at closer
    cases opener
    cases closer
    rfl
  · have notFirst : l ≠ i := by
      rintro rfl
      rw [atFirst, Option.map_some, opens] at closer
      cases closer
    have notSecond : k ≠ j := by
      rintro rfl
      rw [atSecond, Option.map_some, closes] at opener
      cases opener
    rw [elsewhere l notFirst last] at closer
    have first : k ≠ i := by
      rintro rfl
      exact last (Pairs.unique ⟨pair.opener, closer, top⟩ pair)
    rw [elsewhere k first notSecond] at opener
    exact matched k l bracket' other' ⟨opener, closer, top⟩

/-- **Another kind for one pair** of brackets gives the same S-expressions where no error is
read. -/
theorem Pairs.map_readAll_set (clean : ∀ d ∈ Sexp.readAll ts, d.sexp.IsClean) :
    (Sexp.readAll ((ts.set i opened).set j closed)).map (·.sexp) =
      (Sexp.readAll ts).map (·.sexp) :=
  map_readAll_of_rounded (pair.map_rounded_set opens closes).symm clean
    ((matched_of_isClean clean).set pair opens closes)

end Replaced

end Reader

end Tyro
