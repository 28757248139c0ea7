import Tyro.Proofs.Sexp.Spell

/-!
# The reader as a stack of brackets

What tokens are read as, said by the places of brackets alone.

* `openAt ts n` is the stack of a bracket count: the places of the brackets that are open after the
  first `n` tokens, innermost first. An opening bracket is pushed and a closing bracket pops the
  top, whatever its kind.
* `Spans ts i j sexp`: the tokens from place `i` up to `j` are a token that stands for the
  S-expression, or a group whose opening bracket at `i` is popped by the closing bracket just before
  `j`. `Between` says the same of what stands inside a group, `Outside` of what stands at the top
  level, and `ReadAs` of all tokens with what becomes of brackets that stay open.
* `Agrees` ties the stack to the groups of the reader, and `agrees` proves it at every place.
* `map_readAll_eq_iff`: the reader reads tokens as `ReadAs` says and as nothing else.
  `Sexp.readAll_by_stack` adds where each kind of error can stand.
-/

namespace Tyro

namespace Sexp

/-- The second S-expression is the first one or stands inside it, at any depth. -/
inductive Contains : Sexp → Sexp → Prop where
  | self (sexp : Sexp) : Contains sexp sexp
  | item {items : List Sexp} {item part : Sexp} : item ∈ items → Contains item part →
    Contains (.list items) part

/-- An error has nothing inside. -/
theorem contains_error_iff {e : ReadError} {part : Sexp} :
    Contains (.error e) part ↔ part = .error e := by
  constructor
  · rintro ⟨⟩
    rfl
  · rintro rfl
    exact .self _

end Sexp

namespace Reader

/-! ## The stack -/

/-- The places of the brackets that are open after the first tokens, innermost first. -/
def openAt (ts : List Token) : Nat → List Nat
  | 0 => []
  | n + 1 =>
    match ts[n]?.map Token.kind with
    | some (.opener _) => n :: openAt ts n
    | some (.closer _) => (openAt ts n).tail
    | _ => openAt ts n

/-- A token that is not a bracket and not blank stands for an S-expression by itself. -/
inductive StandsFor (t : Token) : Sexp → Prop where
  | number {value : Float} : t.kind = .number → Number.read? t.text.toList = some value →
    StandsFor t (.number value)
  | tooLarge : t.kind = .number → Number.read? t.text.toList = none →
    StandsFor t (.error ⟨.badToken, [t]⟩)
  | string : t.kind = .string → StandsFor t (.string (String.ofList t.text.toList.tail.dropLast))
  | boolean : t.kind = .boolean → StandsFor t (.boolean (t.text = "#true" || t.text = "#t"))
  | name : t.kind = .name → StandsFor t (.name t.text)
  | bad {fault : TokenFault} : t.kind = .bad fault → StandsFor t (.error ⟨.badToken, [t]⟩)

mutual

/-- What the tokens from one place up to another are read as: a token by itself, or a group from its
opening bracket up to the closing bracket that pops it. -/
inductive Spans (ts : List Token) : Nat → Nat → Sexp → Prop where
  | single {i : Nat} {t : Token} {sexp : Sexp} : ts[i]? = some t → StandsFor t sexp →
    Spans ts i (i + 1) sexp
  | list {i j : Nat} {opened closed : Token} {bracket : Bracket} {items : List Sexp} :
    ts[i]? = some opened → opened.kind = .opener bracket →
    ts[j]? = some closed → closed.kind = .closer bracket → (openAt ts j).head? = some i →
    Between ts (i + 1) j items → Spans ts i (j + 1) (.list items)
  | mismatched {i j : Nat} {opened closed : Token} {bracket other : Bracket} :
    ts[i]? = some opened → opened.kind = .opener bracket →
    ts[j]? = some closed → closed.kind = .closer other → bracket ≠ other →
    (openAt ts j).head? = some i → Spans ts i (j + 1) (.error ⟨.mismatched, ts.extract i (j + 1)⟩)

/-- What the tokens inside a group are read as, from one place up to another. -/
inductive Between (ts : List Token) : Nat → Nat → List Sexp → Prop where
  | nil (i : Nat) : Between ts i i []
  | blank {i j : Nat} {t : Token} {items : List Sexp} : Between ts i j items →
    ts[j]? = some t → t.kind = .blank → Between ts i (j + 1) items
  | item {i j k : Nat} {sexp : Sexp} {items : List Sexp} : Between ts i j items →
    Spans ts j k sexp → Between ts i k (items ++ [sexp])

end

/-- What the first tokens are read as, with no bracket open after them. -/
inductive Outside (ts : List Token) : Nat → List Sexp → Prop where
  | nil : Outside ts 0 []
  | blank {i : Nat} {t : Token} {sexps : List Sexp} : Outside ts i sexps →
    ts[i]? = some t → t.kind = .blank → Outside ts (i + 1) sexps
  | stray {i : Nat} {t : Token} {bracket : Bracket} {sexps : List Sexp} : Outside ts i sexps →
    ts[i]? = some t → t.kind = .closer bracket → openAt ts i = [] →
    Outside ts (i + 1) (sexps ++ [.error ⟨.unopened, [t]⟩])
  | sexp {i j : Nat} {sexp : Sexp} {sexps : List Sexp} : Outside ts i sexps →
    Spans ts i j sexp → Outside ts j (sexps ++ [sexp])

/-- What all tokens are read as. Brackets that stay open make one error of everything from the
outermost of them on. -/
inductive ReadAs (ts : List Token) : List Sexp → Prop where
  | closed {sexps : List Sexp} : Outside ts ts.length sexps → ReadAs ts sexps
  | unclosed {i : Nat} {sexps : List Sexp} : Outside ts i sexps →
    (openAt ts ts.length).getLast? = some i →
    ReadAs ts (sexps ++ [.error ⟨.unclosed, ts.drop i⟩])

/-! ## The reader from place to place -/

section Places

variable {ts : List Token} {i j k n : Nat} {t : Token} {sexp : Sexp}

/-- The groups that are open after the first tokens, and the data completed before. -/
def after (ts : List Token) (n : Nat) : List Group × List Datum := feed [] (ts.take n)

/-- The reader goes on by one token. -/
theorem after_succ (found : ts[n]? = some t) :
    after ts (n + 1) =
      ((step (after ts n).1 t).1, (after ts n).2 ++ (step (after ts n).1 t).2.toList) := by
  unfold after
  rw [List.take_add_one, found, Option.toList_some, feed_append]
  simp [feed]

/-- All S-expressions are those completed at the end, and what is left there. -/
theorem map_readAll :
    (Sexp.readAll ts).map (·.sexp) =
      ((after ts ts.length).2 ++ (finish (after ts ts.length).1).toList).map (·.sexp) := by
  unfold Sexp.readAll after
  rw [run_eq_feed, List.take_length, List.map_map]
  rfl

/-- Tokens between two places, and the token after them. -/
theorem extract_succ (le : i ≤ n) (found : ts[n]? = some t) :
    ts.extract i (n + 1) = ts.extract i n ++ [t] := by
  have more : n + 1 - i = n - i + 1 := by omega
  have place : i + (n - i) = n := by omega
  rw [List.extract_eq_take_drop, List.extract_eq_take_drop, more, List.take_add_one,
    List.getElem?_drop, place, found, Option.toList_some]

/-- Tokens between two places, up to a place between. -/
theorem extract_append (le : i ≤ j) (le' : j ≤ k) :
    ts.extract i j ++ ts.extract j k = ts.extract i k := by
  have parts : k - i = (j - i) + (k - j) := by omega
  have place : i + (j - i) = j := by omega
  simp only [List.extract_eq_take_drop]
  rw [parts, List.take_add, List.drop_drop, place]

/-- The S-expression is handed over at the second place, read from the tokens since the first. -/
def Delivers (ts : List Token) (i j : Nat) (sexp : Sexp) : Prop :=
  after ts j =
    ((deliver sexp (ts.extract i j).reverse (after ts i).1).1,
      (after ts i).2 ++ (deliver sexp (ts.extract i j).reverse (after ts i).1).2.toList)

/-- A token that stands for an S-expression is delivered as it. -/
theorem StandsFor.step (stands : StandsFor t sexp) (groups : List Group) :
    step groups t = deliver sexp [t] groups := by
  cases stands with
  | number kind read => simp [Reader.step, kind, atom, read]
  | tooLarge kind read => simp [Reader.step, kind, atom, read]
  | string kind => simp [Reader.step, kind, atom]
  | boolean kind => simp [Reader.step, kind, atom]
  | name kind => simp [Reader.step, kind, atom]
  | bad kind => simp [Reader.step, kind]

/-- One token is delivered right after it. -/
theorem StandsFor.delivers (stands : StandsFor t sexp) (found : ts[i]? = some t) :
    Delivers ts i (i + 1) sexp := by
  unfold Delivers
  rw [after_succ found, stands.step, extract_succ (Nat.le_refl i) found]
  simp

/-- Every token stands for an S-expression, or is blank or a bracket. -/
theorem standsFor_cases (t : Token) :
    (∃ sexp, StandsFor t sexp) ∨ t.kind = .blank ∨ (∃ bracket, t.kind = .opener bracket) ∨
      ∃ bracket, t.kind = .closer bracket := by
  cases kind : t.kind with
  | opener bracket => exact .inr (.inr (.inl ⟨bracket, rfl⟩))
  | closer bracket => exact .inr (.inr (.inr ⟨bracket, rfl⟩))
  | blank => exact .inr (.inl rfl)
  | string => exact .inl ⟨_, .string kind⟩
  | name => exact .inl ⟨_, .name kind⟩
  | boolean => exact .inl ⟨_, .boolean kind⟩
  | bad fault => exact .inl ⟨_, .bad kind⟩
  | number =>
    cases read : Number.read? t.text.toList with
    | some value => exact .inl ⟨_, .number kind read⟩
    | none => exact .inl ⟨_, .tooLarge kind read⟩

/-! ## The stack from place to place -/

theorem openAt_opener {bracket : Bracket} (found : ts[n]? = some t)
    (kind : t.kind = .opener bracket) : openAt ts (n + 1) = n :: openAt ts n := by
  simp [openAt, found, kind]

theorem openAt_closer {bracket : Bracket} (found : ts[n]? = some t)
    (kind : t.kind = .closer bracket) : openAt ts (n + 1) = (openAt ts n).tail := by
  simp [openAt, found, kind]

theorem openAt_blank (found : ts[n]? = some t) (kind : t.kind = .blank) :
    openAt ts (n + 1) = openAt ts n := by
  simp [openAt, found, kind]

theorem StandsFor.openAt (stands : StandsFor t sexp) (found : ts[n]? = some t) :
    openAt ts (n + 1) = openAt ts n := by
  cases stands <;> simp_all [Reader.openAt]

/-! ## The stack is that of the reader -/

/-- The groups of the reader are those of the stack: no group is open, or the innermost began at the
top of the stack and holds what stands since. The groups around it are as they were there. -/
inductive Agrees (ts : List Token) (n : Nat) : Prop where
  | empty : (after ts n).1 = [] → openAt ts n = [] → Agrees ts n
  | group {i : Nat} {opened : Token} {bracket : Bracket} {items : List Sexp} : i < n →
    ts[i]? = some opened → opened.kind = .opener bracket → Between ts (i + 1) n items →
    openAt ts n = i :: openAt ts i →
    after ts n =
      (⟨bracket, (ts.extract i n).reverse, items.reverse⟩ :: (after ts i).1, (after ts i).2) →
    Agrees ts n

/-- What is delivered joins the innermost group. -/
theorem Agrees.deliver (h : Agrees ts i) (lt : i < n) (spans : Spans ts i n sexp)
    (delivers : Delivers ts i n sexp) (stack : openAt ts n = openAt ts i) : Agrees ts n := by
  unfold Delivers at delivers
  cases h with
  | empty outside nothing =>
    refine .empty ?_ (stack.trans nothing)
    rw [delivers, outside]
    rfl
  | group lt' found opens between stack' groups =>
    refine .group (Nat.lt_trans lt' lt) found opens (between.item spans) (stack.trans stack') ?_
    rw [delivers, groups, ← extract_append (Nat.le_of_lt lt') (Nat.le_of_lt lt)]
    simp [Reader.deliver]

/-- A blank token joins the innermost group. -/
theorem Agrees.blank (h : Agrees ts n) (found : ts[n]? = some t) (kind : t.kind = .blank) :
    Agrees ts (n + 1) := by
  have stack := openAt_blank found kind
  cases h with
  | empty outside nothing =>
    refine .empty ?_ (stack.trans nothing)
    rw [after_succ found, outside]
    simp [step, kind]
  | group lt opened opens between stack' groups =>
    refine .group (Nat.lt_succ_of_lt lt) opened opens (between.blank found kind)
      (stack.trans stack') ?_
    rw [after_succ found, groups, extract_succ (Nat.le_of_lt lt) found]
    simp [step, kind]

/-- An opening bracket begins a group. -/
theorem agrees_opener {bracket : Bracket} (found : ts[n]? = some t)
    (opens : t.kind = .opener bracket) : Agrees ts (n + 1) := by
  refine .group (Nat.lt_succ_self n) found opens (.nil _) (openAt_opener found opens) ?_
  rw [after_succ found, extract_succ (Nat.le_refl n) found]
  simp [step, opens]

/-- A group whose closing bracket comes is delivered as a list, or as an error where the brackets
are of different kinds. -/
theorem spans_of_closer {opened closed : Token} {bracket other : Bracket} {items : List Sexp}
    (lt : i < n) (foundOpened : ts[i]? = some opened) (opens : opened.kind = .opener bracket)
    (between : Between ts (i + 1) n items) (stack : openAt ts n = i :: openAt ts i)
    (groups : after ts n =
      (⟨bracket, (ts.extract i n).reverse, items.reverse⟩ :: (after ts i).1, (after ts i).2))
    (found : ts[n]? = some closed) (closes : closed.kind = .closer other) :
    ∃ sexp, Spans ts i (n + 1) sexp ∧ Delivers ts i (n + 1) sexp := by
  have top : (openAt ts n).head? = some i := by rw [stack, List.head?_cons]
  have tokens := extract_succ (Nat.le_of_lt lt) found
  by_cases same : bracket = other
  · subst same
    refine ⟨.list items, .list foundOpened opens found closes top between, ?_⟩
    unfold Delivers
    rw [after_succ found, groups, tokens]
    simp [step, closes, Group.close]
  · refine ⟨_, .mismatched foundOpened opens found closes same top, ?_⟩
    unfold Delivers
    rw [after_succ found, groups, tokens]
    simp [step, closes, Group.close, same]

/-- **The groups of the reader are those of the stack**, at every place. -/
theorem agrees (ts : List Token) (n : Nat) (le : n ≤ ts.length) : Agrees ts n := by
  -- A closing bracket hands its group to the groups of an earlier place, so all of them are needed.
  induction n using Nat.strongRecOn with
  | _ n ih =>
    cases n with
    | zero => exact .empty rfl rfl
    | succ n =>
      have before := ih n (Nat.lt_succ_self n) (Nat.le_of_succ_le le)
      have found : ts[n]? = some ts[n] := List.getElem?_eq_getElem le
      rcases standsFor_cases ts[n] with ⟨sexp, stands⟩ | blank | ⟨bracket, opens⟩ |
        ⟨bracket, closes⟩
      · exact before.deliver (Nat.lt_succ_self n) (.single found stands) (stands.delivers found)
          (stands.openAt found)
      · exact before.blank found blank
      · exact agrees_opener found opens
      · have pop := openAt_closer found closes
        cases before with
        | empty outside nothing =>
          refine .empty ?_ (by rw [pop, nothing, List.tail_nil])
          rw [after_succ found, outside]
          simp [step, closes]
        | group lt opened opens between stack groups =>
          obtain ⟨sexp, spans, delivers⟩ :=
            spans_of_closer lt opened opens between stack groups found closes
          have outer := ih _ (Nat.lt_succ_of_lt lt) (by omega)
          refine outer.deliver (Nat.lt_succ_of_lt lt) spans delivers ?_
          rw [pop, stack, List.tail_cons]

/-- No group is open exactly where the stack is empty. -/
theorem after_eq_nil_iff (le : n ≤ ts.length) : (after ts n).1 = [] ↔ openAt ts n = [] := by
  cases agrees ts n le with
  | empty outside nothing => simp [outside, nothing]
  | group _ _ _ _ stack groups => simp [stack, groups]

/-- The outermost open bracket: before it no group is open, what is completed later is completed
before it, and the groups hold all tokens from it on. -/
theorem outermost (le : n ≤ ts.length) (inside : openAt ts n ≠ []) :
    ∃ i, (openAt ts n).getLast? = some i ∧ i < n ∧ openAt ts i = [] ∧
      (after ts n).2 = (after ts i).2 ∧
      ((after ts n).1.flatMap (·.tokens)).reverse = ts.extract i n := by
  -- By the place: the groups around the innermost one are those of an earlier place.
  induction n using Nat.strongRecOn with
  | _ n ih =>
    cases agrees ts n le with
    | empty outside nothing => exact absurd nothing inside
    | @group i _ _ _ lt _ _ _ stack groups =>
      by_cases around : openAt ts i = []
      · refine ⟨i, by rw [stack, around, List.getLast?_singleton], lt, around, by rw [groups], ?_⟩
        rw [groups, (after_eq_nil_iff (by omega)).2 around]
        simp
      · obtain ⟨o, last, lt', outside, data, tokens⟩ := ih i lt (by omega) around
        refine ⟨o, ?_, Nat.lt_trans lt' lt, outside, by rw [groups, data], ?_⟩
        · obtain ⟨p, rest, eq⟩ := List.exists_cons_of_ne_nil around
          rw [stack, eq, List.getLast?_cons_cons, ← eq, last]
        · rw [groups, List.flatMap_cons, List.reverse_append, tokens, List.reverse_reverse,
            extract_append (Nat.le_of_lt lt') (Nat.le_of_lt lt)]

/-! ## What is read is what the stack says -/

/-- Between two places a group collects the items, and nothing else changes. -/
def Collects (ts : List Token) (i j : Nat) (items : List Sexp) : Prop :=
  ∀ g outer, (after ts i).1 = g :: outer →
    after ts j = (⟨g.bracket, (ts.extract i j).reverse ++ g.tokens, items.reverse ++ g.items⟩ ::
      outer, (after ts i).2)

/-- The group that a closing bracket pops is the innermost one. -/
theorem innermost_of_head {opened : Token} {bracket : Bracket} (le : n ≤ ts.length)
    (top : (openAt ts n).head? = some i) (found : ts[i]? = some opened)
    (opens : opened.kind = .opener bracket) :
    i < n ∧ ∃ items, after ts n =
      (⟨bracket, (ts.extract i n).reverse, items⟩ :: (after ts i).1, (after ts i).2) := by
  cases agrees ts n le with
  | empty _ nothing => simp [nothing] at top
  | group lt found' opens' _ stack groups =>
    rw [stack, List.head?_cons, Option.some.injEq] at top
    subst top
    rw [found, Option.some.injEq] at found'
    subst found'
    rw [opens, TokenKind.opener.injEq] at opens'
    exact ⟨lt, _, opens' ▸ groups⟩

mutual

/-- What tokens are read as by the stack, the reader delivers. -/
theorem Spans.delivers {i j : Nat} {sexp : Sexp} :
    Spans ts i j sexp → i < j ∧ Delivers ts i j sexp
  | .single found stands => ⟨Nat.lt_succ_self i, stands.delivers found⟩
  | @Spans.list _ _ j opened closed bracket items foundOpened opens found closes _ between => by
    obtain ⟨le, collects⟩ := between.collects
    have lt : i < j := le
    have start : after ts (i + 1) =
        (⟨bracket, [opened], []⟩ :: (after ts i).1, (after ts i).2) := by
      rw [after_succ foundOpened]
      simp [step, opens]
    have groups := collects _ _ (congrArg Prod.fst start)
    have one : ts.extract i (i + 1) = [opened] := by
      rw [extract_succ (Nat.le_refl i) foundOpened]
      simp
    have tokens : ts.extract i (i + 1) ++ ts.extract (i + 1) j = ts.extract i j :=
      extract_append (Nat.le_succ i) le
    refine ⟨Nat.lt_succ_of_lt lt, ?_⟩
    unfold Delivers
    rw [after_succ found, groups, start, extract_succ (Nat.le_of_lt lt) found, ← tokens, one]
    simp [step, closes, Group.close]
  | @Spans.mismatched _ _ j opened closed bracket other foundOpened opens found closes differ
      top => by
    have le : j ≤ ts.length := Nat.le_of_lt (List.getElem?_eq_some_iff.1 found).1
    obtain ⟨lt, items, groups⟩ := innermost_of_head le top foundOpened opens
    refine ⟨Nat.lt_succ_of_lt lt, ?_⟩
    unfold Delivers
    rw [after_succ found, groups, extract_succ (Nat.le_of_lt lt) found]
    simp [step, closes, Group.close, differ]

/-- What stands inside a group by the stack, the group collects. -/
theorem Between.collects {i j : Nat} {items : List Sexp} :
    Between ts i j items → i ≤ j ∧ Collects ts i j items
  | .nil _ => by
    refine ⟨Nat.le_refl i, fun g outer open' => ?_⟩
    simp [← open']
  | .blank before found kind => by
    obtain ⟨le, collects⟩ := before.collects
    refine ⟨Nat.le_succ_of_le le, fun g outer open' => ?_⟩
    rw [after_succ found, collects g outer open', extract_succ le found]
    simp [step, kind]
  | .item before spans => by
    obtain ⟨le, collects⟩ := before.collects
    obtain ⟨lt, delivers⟩ := spans.delivers
    refine ⟨Nat.le_trans le (Nat.le_of_lt lt), fun g outer open' => ?_⟩
    unfold Delivers at delivers
    rw [delivers, collects g outer open', ← extract_append le (Nat.le_of_lt lt)]
    simp [deliver]

end

/-- What stands at the top level by the stack is what the reader has completed. -/
theorem Outside.completed {sexps : List Sexp} (h : Outside ts n sexps) (le : n ≤ ts.length) :
    (after ts n).1 = [] ∧ (after ts n).2.map (·.sexp) = sexps := by
  induction h with
  | nil => exact ⟨rfl, rfl⟩
  | blank _ found kind ih =>
    obtain ⟨outside, data⟩ := ih (Nat.le_of_succ_le le)
    rw [after_succ found, outside]
    simpa [step, kind] using data
  | stray _ found kind _ ih =>
    obtain ⟨outside, data⟩ := ih (Nat.le_of_succ_le le)
    rw [after_succ found, outside]
    simpa [step, kind] using data
  | sexp _ spans ih =>
    obtain ⟨lt, delivers⟩ := spans.delivers
    obtain ⟨outside, data⟩ := ih (Nat.le_trans (Nat.le_of_lt lt) le)
    unfold Delivers at delivers
    rw [delivers, outside]
    simpa [deliver] using data

/-- What is delivered where no group is open stands at the top level. -/
theorem Outside.deliver (h : Outside ts i ((after ts i).2.map (·.sexp)))
    (outside : (after ts i).1 = []) (spans : Spans ts i j sexp) :
    Outside ts j ((after ts j).2.map (·.sexp)) := by
  have delivers := spans.delivers.2
  unfold Delivers at delivers
  rw [delivers, outside]
  simpa [Reader.deliver] using h.sexp spans

/-- What the reader has completed where the stack is empty stands at the top level. -/
theorem outside_of_openAt (le : n ≤ ts.length) (empty : openAt ts n = []) :
    Outside ts n ((after ts n).2.map (·.sexp)) := by
  -- By the place: a closing bracket leads back to where its group began.
  induction n using Nat.strongRecOn with
  | _ n ih =>
    cases n with
    | zero => exact .nil
    | succ n =>
      have found : ts[n]? = some ts[n] := List.getElem?_eq_getElem le
      have before (stack : openAt ts n = []) : Outside ts n ((after ts n).2.map (·.sexp)) :=
        ih n (Nat.lt_succ_self n) (Nat.le_of_succ_le le) stack
      have outside (stack : openAt ts n = []) : (after ts n).1 = [] :=
        (after_eq_nil_iff (Nat.le_of_succ_le le)).2 stack
      rcases standsFor_cases ts[n] with ⟨sexp, stands⟩ | blank | ⟨bracket, opens⟩ |
        ⟨bracket, closes⟩
      · have stack := (stands.openAt found).symm.trans empty
        exact (before stack).deliver (outside stack) (.single found stands)
      · have stack := (openAt_blank found blank).symm.trans empty
        have next := (before stack).blank found blank
        rw [after_succ found, outside stack]
        simpa [step, blank] using next
      · rw [openAt_opener found opens] at empty
        cases empty
      · cases agrees ts n (Nat.le_of_succ_le le) with
        | empty empty stack =>
          have next := (before stack).stray found closes stack
          rw [after_succ found, empty]
          simpa [step, closes] using next
        | @group i _ _ _ lt opened opens between stack groups =>
          obtain ⟨sexp, spans, -⟩ :=
            spans_of_closer lt opened opens between stack groups found closes
          have outer : openAt ts i = [] := by
            rwa [openAt_closer found closes, stack, List.tail_cons] at empty
          have le' : i ≤ ts.length := by omega
          have before := ih i (Nat.lt_succ_of_lt lt) le' outer
          exact before.deliver ((after_eq_nil_iff le').2 outer) spans

/-- The error that brackets make that stay open. -/
theorem finish_of_openAt (stack : openAt ts ts.length ≠ []) :
    ∃ i, (openAt ts ts.length).getLast? = some i ∧ i < ts.length ∧ openAt ts i = [] ∧
      (Sexp.readAll ts).map (·.sexp) =
        (after ts i).2.map (·.sexp) ++ [.error ⟨.unclosed, ts.drop i⟩] := by
  obtain ⟨i, last, lt, outside, data, tokens⟩ := outermost (Nat.le_refl _) stack
  refine ⟨i, last, lt, outside, ?_⟩
  have rest : ts.extract i ts.length = ts.drop i := by
    rw [List.extract_eq_take_drop, ← List.length_drop, List.take_length]
  rw [rest] at tokens
  have stillOpen : (after ts ts.length).1 ≠ [] := mt (after_eq_nil_iff (Nat.le_refl _)).1 stack
  obtain ⟨g, outer, eq⟩ := List.exists_cons_of_ne_nil stillOpen
  rw [map_readAll, data, List.map_append]
  rw [eq] at tokens ⊢
  rw [finish, tokens]
  · rfl
  · nofun

/-- Where no bracket stays open, everything stands at the top level. -/
theorem outside_of_empty (stack : openAt ts ts.length = []) :
    Outside ts ts.length ((Sexp.readAll ts).map (·.sexp)) := by
  rw [map_readAll, (after_eq_nil_iff (Nat.le_refl _)).2 stack]
  simpa [finish] using outside_of_openAt (Nat.le_refl _) stack

/-- **What is read is what the stack says**, and nothing else. -/
theorem map_readAll_eq_iff {sexps : List Sexp} :
    (Sexp.readAll ts).map (·.sexp) = sexps ↔ ReadAs ts sexps := by
  constructor
  · rintro rfl
    by_cases stack : openAt ts ts.length = []
    · exact .closed (outside_of_empty stack)
    · obtain ⟨i, last, lt, outside, read⟩ := finish_of_openAt stack
      rw [read]
      exact .unclosed (outside_of_openAt (Nat.le_of_lt lt) outside) last
  · rintro (closed | ⟨open', last⟩)
    · obtain ⟨outside, data⟩ := closed.completed (Nat.le_refl _)
      rw [map_readAll, outside]
      simpa [finish] using data
    · have stack : openAt ts ts.length ≠ [] := by
        intro nothing
        rw [nothing] at last
        cases last
      obtain ⟨i, last', lt, outside, read⟩ := finish_of_openAt stack
      rw [last, Option.some.injEq] at last'
      subst last'
      rw [read, (open'.completed (Nat.le_of_lt lt)).2]

/-! ## Where errors stand -/

mutual

/-- Inside what is read up to a closing bracket, only bad tokens and wrong closers are errors. -/
theorem Spans.fault {i j : Nat} {sexp : Sexp} :
    Spans ts i j sexp →
      ∀ e, sexp.Contains (.error e) → e.fault = .badToken ∨ e.fault = .mismatched
  | .single _ stands => by
    intro e inside
    cases stands with
    | tooLarge | bad =>
      cases Sexp.contains_error_iff.1 inside
      exact .inl rfl
    | _ => cases inside
  | .list _ _ _ _ _ between => by
    rintro e (_ | ⟨mem, inside⟩)
    exact between.fault _ mem e inside
  | .mismatched _ _ _ _ _ _ => by
    intro e inside
    cases Sexp.contains_error_iff.1 inside
    exact .inr rfl

/-- The same of what stands inside a group. -/
theorem Between.fault {i j : Nat} {items : List Sexp} :
    Between ts i j items → ∀ item ∈ items,
      ∀ e, item.Contains (.error e) → e.fault = .badToken ∨ e.fault = .mismatched
  | .nil _ => fun _ mem => nomatch mem
  | .blank before _ _ => before.fault
  | .item before spans => by
    intro item mem
    rcases List.mem_append.1 mem with mem | mem
    · exact before.fault item mem
    · rw [List.mem_singleton.1 mem]
      exact spans.fault

end

/-- At the top level there are strays as well. -/
theorem Outside.fault {sexps : List Sexp} {e : ReadError} (h : Outside ts n sexps)
    (mem : sexp ∈ sexps) (inside : sexp.Contains (.error e)) :
    e.fault = .badToken ∨ e.fault = .mismatched ∨ (e.fault = .unopened ∧ sexp = .error e) := by
  induction h with
  | nil => cases mem
  | blank _ _ _ ih => exact ih mem
  | stray _ _ _ _ ih =>
    rcases List.mem_append.1 mem with mem | mem
    · exact ih mem
    · cases List.mem_singleton.1 mem
      cases Sexp.contains_error_iff.1 inside
      exact .inr (.inr ⟨rfl, rfl⟩)
  | sexp _ spans ih =>
    rcases List.mem_append.1 mem with mem | mem
    · exact ih mem
    · cases List.mem_singleton.1 mem
      exact (spans.fault e inside).imp_right .inl

/-- A closing bracket on the empty stack stays in what is read. -/
theorem stray_mem {bracket : Bracket} (found : ts[i]? = some t) (closes : t.kind = .closer bracket)
    (empty : openAt ts i = []) :
    .error ⟨.unopened, [t]⟩ ∈ (Sexp.readAll ts).map (·.sexp) := by
  have le : i ≤ ts.length := Nat.le_of_lt (List.getElem?_eq_some_iff.1 found).1
  have here : .error ⟨.unopened, [t]⟩ ∈ (after ts (i + 1)).2.map (·.sexp) := by
    rw [after_succ found, (after_eq_nil_iff le).2 empty]
    simp [step, closes]
  have parts := run_append [] (ts.take (i + 1)) (ts.drop (i + 1))
  rw [List.take_append_drop] at parts
  unfold Sexp.readAll
  rw [parts, List.map_map, List.map_append]
  exact List.mem_append_left _ here

/-- An error that stands in front of what stays open is no error of an unclosed group, and no error
anywhere is that of an empty text. -/
theorem Outside.fault_ne {sexps : List Sexp} {fault : ReadFault} {tokens : List Token}
    (h : Outside ts n sexps) (mem : sexp ∈ sexps)
    (inside : sexp.Contains (.error ⟨fault, tokens⟩)) : fault ≠ .unclosed ∧ fault ≠ .nothing := by
  rcases h.fault mem inside with rfl | rfl | ⟨rfl, -⟩ <;> exact ⟨nofun, nofun⟩

end Places

end Reader

namespace Sexp

open Reader

/-- **The reader is a stack that every closing bracket pops.** The S-expressions of tokens are those
that the places of brackets say (`ReadAs`): a group popped by a closing bracket of its own kind is
the list of what stands inside, one popped by another kind is an error of the tokens from one
bracket through the other, and a bad token or a number out of range is an error by itself. A closing
bracket on the empty stack is an error at the top level. The stack is not empty at the end exactly
if some error is that of an unclosed group; this is then the last S-expression and holds everything
from the outermost open bracket on, and there is no other. No error says that there was nothing to
read. -/
theorem readAll_by_stack (ts : List Token) :
    (∀ sexps, (readAll ts).map (·.sexp) = sexps ↔ ReadAs ts sexps) ∧
      (∀ i t bracket, ts[i]? = some t → t.kind = .closer bracket → openAt ts i = [] →
        .error ⟨.unopened, [t]⟩ ∈ (readAll ts).map (·.sexp)) ∧
      (openAt ts ts.length ≠ [] ↔
        ∃ sexp ∈ (readAll ts).map (·.sexp), ∃ tokens,
          sexp.Contains (.error ⟨.unclosed, tokens⟩)) ∧
      (∀ i, (openAt ts ts.length).getLast? = some i →
        ∃ before, (readAll ts).map (·.sexp) = before ++ [.error ⟨.unclosed, ts.drop i⟩] ∧
          ∀ sexp ∈ before, ∀ tokens, ¬ sexp.Contains (.error ⟨.unclosed, tokens⟩)) ∧
      ∀ sexp ∈ (readAll ts).map (·.sexp), ∀ tokens,
        ¬ sexp.Contains (.error ⟨.nothing, tokens⟩) := by
  refine ⟨fun _ => map_readAll_eq_iff, fun _ _ _ => stray_mem, ?_, ?_, ?_⟩
  · constructor
    · intro stack
      obtain ⟨i, -, -, -, read⟩ := finish_of_openAt stack
      refine ⟨.error ⟨.unclosed, ts.drop i⟩, ?_, ts.drop i, .self _⟩
      rw [read]
      exact List.mem_append_right _ (List.mem_singleton_self _)
    · rintro ⟨sexp, mem, tokens, inside⟩ stack
      exact ((outside_of_empty stack).fault_ne mem inside).1 rfl
  · intro i last
    have stack : openAt ts ts.length ≠ [] := by
      intro nothing
      rw [nothing] at last
      cases last
    obtain ⟨o, last', lt, outside, read⟩ := finish_of_openAt stack
    rw [last, Option.some.injEq] at last'
    subst last'
    refine ⟨_, read, fun sexp mem tokens inside => ?_⟩
    exact ((outside_of_openAt (Nat.le_of_lt lt) outside).fault_ne mem inside).1 rfl
  · intro sexp mem tokens inside
    by_cases stack : openAt ts ts.length = []
    · exact ((outside_of_empty stack).fault_ne mem inside).2 rfl
    · obtain ⟨i, -, lt, outside, read⟩ := finish_of_openAt stack
      rw [read] at mem
      rcases List.mem_append.1 mem with mem | mem
      · have front := outside_of_openAt (Nat.le_of_lt lt) outside
        exact (front.fault_ne mem inside).2 rfl
      · rw [List.mem_singleton.1 mem] at inside
        cases contains_error_iff.1 inside

end Sexp

end Tyro
