import Mathlib.Data.List.DropRight
import Tyro.Proofs.Guarded.Scan
import Tyro.Proofs.Sexp.Entries

/-!
# Reading by descent

The reader can also be written as a function that calls itself for every group inside a group, on
tokens that it slices off a list (`Guarded.readOne?`, `Guarded.readItems?`). Then there are steps
that may break it off: a slice beyond the end, a length that would be negative, a blank token where
blanks have been skipped, and the quotes of a string that are not there.

None of them does, and what is read is what `Sexp.readAll` reads with its stack of open groups
(`Guarded.readAll?_eq`). A group whose bracket is found is one that a run over the same tokens
closes (`Group.Closes`), and a group that swallows the rest of the text is one that such a run
leaves open (`Group.StaysOpen`), whatever groups are open around it.
-/

namespace Tyro

open Token Reader

namespace Guarded

/-! ## The reader -/

/-- The items of a list behind the first `n`, if there are so many. -/
def sliceFrom? {α : Type} (xs : List α) (n : Nat) : Option (List α) :=
  if n ≤ xs.length then some (xs.drop n) else none

/-- The first `n` items of a list, if there are so many. -/
def sliceTo? {α : Type} (xs : List α) (n : Nat) : Option (List α) :=
  if n ≤ xs.length then some (xs.take n) else none

/-- A difference of lengths, if it is not negative. -/
def minus? (m n : Nat) : Option Nat := if n ≤ m then some (m - n) else none

/-- The tokens from the first one on that is not blank. -/
def skipBlanks? (ts : List Token) : Option (List Token) :=
  sliceFrom? ts (ts.findIdx fun t => !t.isBlank)

/-- The S-expression of a token that stands for itself. -/
def atom? (t : Token) : Option Sexp :=
  match t.kind with
  | .string => do return .string (String.ofList (← cutQuotes? t.text.toList))
  | _ => some (atom t)

/-- Whether an S-expression is a group that is not closed. -/
def isUnclosed : Sexp → Bool
  | .error e => e.fault = .unclosed
  | _ => false

mutual

/-- Reads one S-expression from the front, with no more than `steps` calls inside each other, and
gives the tokens that are left. -/
def readOne? : Nat → List Token → Option (Sexp × List Token)
  | 0, _ => none
  | steps + 1, tokens => do
    let tokens ← skipBlanks? tokens
    match tokens with
    | [] => return (.error ⟨.nothing, []⟩, [])
    | t :: rest =>
      match t.kind with
      | .opener bracket => readItems? steps bracket tokens [] (← sliceFrom? tokens 1)
      | .closer _ => return (.error ⟨.unopened, ← sliceTo? tokens 1⟩, rest)
      | .bad _ => return (.error ⟨.badToken, ← sliceTo? tokens 1⟩, rest)
      | .blank => none
      | _ => return (← atom? t, rest)

/-- Reads a group to its end. The group begins with `tokens`, its bracket included; it has the items
already, and the tokens that remain are those behind them. -/
def readItems? : Nat → Bracket → List Token → List Sexp → List Token → Option (Sexp × List Token)
  | 0, _, _, _, _ => none
  | steps + 1, bracket, tokens, items, remaining => do
    let remaining ← skipBlanks? remaining
    let consumed ← minus? tokens.length remaining.length
    match remaining with
    | [] => return (.error ⟨.unclosed, tokens⟩, [])
    | t :: _ =>
      match t.kind with
      | .closer closer =>
        if closer = bracket then return (.list items, ← sliceFrom? remaining 1)
        else
          return (.error ⟨.mismatched, ← sliceTo? tokens (consumed + 1)⟩, ← sliceFrom? remaining 1)
      | _ =>
        let (item, rest) ← readOne? steps remaining
        if isUnclosed item then return (.error ⟨.unclosed, tokens⟩, rest)
        else readItems? steps bracket tokens (items ++ [item]) rest

end

/-- Reads all S-expressions of tokens that do not begin with a blank one, if there are fewer than
`steps`, each with its span. -/
def readFrom? (depth : Nat) : Nat → List Token → Option (List Sexp.Located)
  | 0, _ => none
  | steps + 1, remaining =>
    match remaining with
    | [] => some []
    | _ => do
      let (sexp, rest) ← readOne? depth remaining
      let consumed ← sliceTo? remaining (← minus? remaining.length rest.length)
      return ⟨sexp, Datum.span ⟨sexp, consumed⟩⟩ :: (← readFrom? depth steps (← skipBlanks? rest))

/-- Reads all S-expressions, each with its span. A token makes no more than two calls. -/
def readAll? (tokens : List Token) : Option (List Sexp.Located) := do
  readFrom? (2 * tokens.length + 1) (tokens.length + 1) (← skipBlanks? tokens)

end Guarded

/-! ## Groups over tokens -/

namespace Reader

namespace Group

/-- The tokens close the group, which then is the S-expression, whatever groups are around it. -/
def Closes (g : Group) (ts : List Token) (sexp : Sexp) : Prop :=
  ∀ outer, feed (g :: outer) ts =
    ((deliver sexp (ts.reverse ++ g.tokens) outer).1,
      (deliver sexp (ts.reverse ++ g.tokens) outer).2.toList)

/-- The tokens leave the group open, and perhaps groups inside, whatever groups are around it. -/
def StaysOpen (g : Group) (ts : List Token) : Prop :=
  ∀ outer, ∃ inner, feed (g :: outer) ts = (inner ++ outer, []) ∧ inner ≠ [] ∧
    (inner.flatMap (·.tokens)).reverse = g.tokens.reverse ++ ts

/-- The group with more tokens and items. -/
def grow (g : Group) (ts : List Token) (items : List Sexp) : Group :=
  ⟨g.bracket, ts.reverse ++ g.tokens, items.reverse ++ g.items⟩

variable {g : Group} {ts us : List Token} {items : List Sexp} {sexp : Sexp}

/-- What closes a group with more items closes the group behind those items. -/
theorem Closes.of_items (read : ReadsItems ts items) (h : (g.grow ts items).Closes us sexp) :
    g.Closes (ts ++ us) sexp := by
  intro outer
  have rest := h outer
  rw [grow] at rest
  rw [feed_append, read g outer, rest]
  simp

/-- What leaves a group with more items open leaves the group open behind those items. -/
theorem StaysOpen.of_items (read : ReadsItems ts items) (h : (g.grow ts items).StaysOpen us) :
    g.StaysOpen (ts ++ us) := by
  intro outer
  obtain ⟨inner, rest, stillOpen, all⟩ := h outer
  rw [grow] at rest all
  refine ⟨inner, ?_, stillOpen, ?_⟩
  · rw [feed_append, read g outer, rest]
    rfl
  · rw [all]
    simp

/-- A closing bracket closes the group. -/
theorem closes_closer {t : Token} {bracket : Bracket} (kind : t.kind = .closer bracket) :
    g.Closes [t] (g.close bracket t) := by
  intro outer
  simp [feed, step, kind]

/-- Without tokens the group stays open. -/
theorem staysOpen_nil (g : Group) : g.StaysOpen [] :=
  fun outer => ⟨[g], rfl, List.cons_ne_nil g [], by simp⟩

/-- A group that is opened and closed is read wherever it stands. -/
theorem Closes.reads {t : Token} {bracket : Bracket} (kind : t.kind = .opener bracket)
    (h : Closes ⟨bracket, [t], []⟩ ts sexp) : Reads (t :: ts) sexp := by
  intro groups
  have rest := h groups
  simp only [feed, step, kind, rest]
  simp

end Group

/-- The tokens open groups and leave them open, whatever groups are around them. -/
def LeavesOpen (ts : List Token) : Prop :=
  ∀ groups, ∃ inner, feed groups ts = (inner ++ groups, []) ∧ inner ≠ [] ∧
    (inner.flatMap (·.tokens)).reverse = ts

/-- A group that is opened and stays open is left open. -/
theorem Group.StaysOpen.leavesOpen {t : Token} {bracket : Bracket} {ts : List Token}
    (kind : t.kind = .opener bracket) (h : StaysOpen ⟨bracket, [t], []⟩ ts) :
    LeavesOpen (t :: ts) := by
  intro groups
  obtain ⟨inner, rest, stillOpen, all⟩ := h groups
  refine ⟨inner, ?_, stillOpen, all⟩
  simp [feed, step, kind, rest]

/-- A group stays open where groups inside are left open. -/
theorem LeavesOpen.staysOpen {ts : List Token} (h : LeavesOpen ts) (g : Group) :
    g.StaysOpen ts := by
  intro outer
  obtain ⟨inner, rest, stillOpen, all⟩ := h (g :: outer)
  refine ⟨inner ++ [g], ?_, List.append_ne_nil_of_right_ne_nil _ (List.cons_ne_nil g []), ?_⟩
  · rw [rest, List.append_assoc, List.singleton_append]
  · simp [List.flatMap_append, all]

/-- Blank tokens are read as nothing inside a group. -/
theorem readsItems_blanks {ts : List Token} (blanks : ∀ t ∈ ts, t.kind = .blank) :
    ReadsItems ts [] := by
  induction ts with
  | nil => exact readsItems_nil
  | cons t ts ih =>
    obtain ⟨first, others⟩ := List.forall_mem_cons.1 blanks
    exact (readsItems_blank first).append (ih others)

end Reader

namespace Guarded

/-! ## What is read by descent -/

/-- What may be read first, and left: an S-expression that its tokens are read as anywhere, or an
unclosed group of all tokens, which leave it open. -/
inductive ReadsFirst (tokens : List Token) : Sexp × List Token → Prop
  | whole {used rest : List Token} {sexp : Sexp} (cut : tokens = used ++ rest)
    (nonempty : used ≠ []) (reads : Reads used sexp) (closed : isUnclosed sexp = false) :
    ReadsFirst tokens (sexp, rest)
  | unclosed (leaves : LeavesOpen tokens) : ReadsFirst tokens (.error ⟨.unclosed, tokens⟩, [])

/-- What may be read to the end of a group, and left: what the group is, closed by the tokens that
are not left, or an unclosed group of all tokens, which leave it open. -/
inductive ReadsGroup (g : Group) (remaining : List Token) : Sexp × List Token → Prop
  | closed {used rest : List Token} {sexp : Sexp} (cut : remaining = used ++ rest)
    (closes : g.Closes used sexp) (closed : isUnclosed sexp = false) :
    ReadsGroup g remaining (sexp, rest)
  | unclosed (stays : g.StaysOpen remaining) :
    ReadsGroup g remaining (.error ⟨.unclosed, g.tokens.reverse ++ remaining⟩, [])

variable {g : Group} {ts us : List Token} {items : List Sexp} {r : Sexp × List Token}

/-- What is read to the end of a group with more items is read to the end of the group. -/
theorem ReadsGroup.of_items (read : ReadsItems ts items) (h : ReadsGroup (g.grow ts items) us r) :
    ReadsGroup g (ts ++ us) r := by
  cases h with
  | closed cut closes closed =>
    exact .closed (by rw [cut, List.append_assoc]) (closes.of_items read) closed
  | unclosed stays =>
    have all : (g.grow ts items).tokens.reverse ++ us = g.tokens.reverse ++ (ts ++ us) := by
      simp [Group.grow]
    rw [all]
    exact .unclosed (stays.of_items read)

/-- Skipping blanks does not break off. -/
theorem skipBlanks?_eq (ts : List Token) : skipBlanks? ts = some (ts.dropWhile Token.isBlank) := by
  rw [skipBlanks?, sliceFrom?, if_pos List.findIdx_le_length, List.dropWhile_eq_drop_findIdx_not]

/-- The tokens that are skipped are blank. -/
theorem blank_of_mem_takeWhile {ts : List Token} :
    ∀ t ∈ ts.takeWhile Token.isBlank, t.kind = .blank := by
  intro t mem
  have blank := List.mem_takeWhile_imp mem
  exact of_decide_eq_true blank

/-- The atom of a scanned token is cut out without breaking off. -/
theorem atom?_eq {t : Token} (token : IsToken t.kind t.text.toList) : atom? t = some (atom t) := by
  cases kind : t.kind with
  | string =>
    rw [kind] at token
    obtain ⟨content, text, -⟩ := token.string_inv
    simp only [atom?, atom, kind, text, cutQuotes?_eq, List.tail_cons, List.dropLast_concat]
    rfl
  | _ => simp only [atom?, kind]

/-- A token that is not blank is not skipped. -/
theorem skipBlanks?_cons {t : Token} (blank : t.kind ≠ .blank) (ts : List Token) :
    skipBlanks? (t :: ts) = some (t :: ts) := by
  rw [skipBlanks?_eq, List.dropWhile_cons_of_neg]
  simpa [Token.isBlank] using blank

/-- The scanner has made the tokens. -/
abbrev Scanned (ts : List Token) : Prop := ∀ t ∈ ts, IsToken t.kind t.text.toList

/-- One S-expression is read from the front, where it neither is blank nor closes a group. -/
def OneReads (steps : Nat) : Prop :=
  ∀ t ts, Scanned (t :: ts) → t.kind ≠ .blank → (∀ bracket, t.kind ≠ .closer bracket) →
    2 * ts.length + 3 ≤ steps → ∃ r, readOne? steps (t :: ts) = some r ∧ ReadsFirst (t :: ts) r

/-- A group is read to its end. -/
def GroupReads (steps : Nat) : Prop :=
  ∀ g remaining, Scanned remaining → 2 * remaining.length + 2 ≤ steps →
    ∃ r, readItems? steps g.bracket (g.tokens.reverse ++ remaining) g.items.reverse remaining =
      some r ∧ ReadsGroup g remaining r

/-- No atom is an unclosed group. -/
theorem isUnclosed_atom (t : Token) : isUnclosed (atom t) = false := by
  unfold atom
  split
  · split <;> rfl
  · rfl
  · rfl
  · rfl

/-- **One S-expression**, if groups can be read. -/
theorem oneReads_succ {steps : Nat} (groups : GroupReads steps) : OneReads (steps + 1) := by
  intro t ts scanned blank closer enough
  obtain ⟨first, others⟩ := List.forall_mem_cons.1 scanned
  have self (kind : t.kind = .number ∨ t.kind = .string ∨ t.kind = .name ∨ t.kind = .boolean) :
      ReadsFirst (t :: ts) (atom t, ts) :=
    .whole rfl (List.cons_ne_nil t []) (reads_atom kind) (isUnclosed_atom t)
  rw [readOne?, skipBlanks?_cons blank]
  simp only [Option.bind_eq_bind, Option.bind_some]
  cases kind : t.kind with
  | blank => exact absurd kind blank
  | closer bracket => exact absurd kind (closer bracket)
  | opener bracket =>
    obtain ⟨r, read, group⟩ := groups ⟨bracket, [t], []⟩ ts others (by omega)
    refine ⟨r, read, ?_⟩
    cases group with
    | closed cut closes closed =>
      subst cut
      exact .whole (List.cons_append ..).symm (List.cons_ne_nil t _) (closes.reads kind) closed
    | unclosed stays => exact .unclosed (stays.leavesOpen kind)
  | bad fault =>
    refine ⟨_, rfl, .whole rfl (List.cons_ne_nil t []) ?_ rfl⟩
    intro groups
    simp [feed, step, kind]
  | number | string | name | boolean =>
    refine ⟨(atom t, ts), ?_, self (by simp [kind])⟩
    simp only [atom?_eq first]
    rfl

/-- Blanks in front of what remains of a group are skipped. -/
theorem readItems?_skip (steps : Nat) (bracket : Bracket) (tokens : List Token) (items : List Sexp)
    (remaining : List Token) :
    readItems? steps bracket tokens items remaining =
      readItems? steps bracket tokens items (remaining.dropWhile Token.isBlank) := by
  cases steps with
  | zero => rw [readItems?, readItems?]
  | succ steps =>
    rw [readItems?, readItems?, skipBlanks?_eq, skipBlanks?_eq, List.dropWhile_idempotent]

/-- What remains of a group is shorter than all of it. -/
theorem minus?_append (xs ys : List Token) :
    minus? (xs ++ ys).length ys.length = some xs.length := by
  rw [minus?, List.length_append, if_pos (Nat.le_add_left ..), Nat.add_sub_cancel_right]

/-- In front of a token that neither is blank nor closes a group, an item is read, and then the rest
of the group. -/
theorem readItems?_item {steps : Nat} {bracket : Bracket} {tokens : List Token} {items : List Sexp}
    {t : Token} {ts : List Token} {consumed : Nat} (blank : t.kind ≠ .blank)
    (closer : ∀ bracket, t.kind ≠ .closer bracket)
    (before : minus? tokens.length (t :: ts).length = some consumed) :
    readItems? (steps + 1) bracket tokens items (t :: ts) =
      (readOne? steps (t :: ts)).bind fun (item, rest) =>
        if isUnclosed item then some (.error ⟨.unclosed, tokens⟩, rest)
        else readItems? steps bracket tokens (items ++ [item]) rest := by
  rw [readItems?, skipBlanks?_cons blank]
  simp only [Option.bind_eq_bind, Option.bind_some, before]
  cases kind : t.kind with
  | closer bracket => exact absurd kind (closer bracket)
  | _ => rfl

/-- A group is read to its end from an item on, if S-expressions and what is left of a group can be
read. -/
theorem groupReads_item {steps : Nat} (one : OneReads steps) (rest : GroupReads steps) (g : Group)
    {t : Token} {ts : List Token} (scanned : Scanned (t :: ts)) (blank : t.kind ≠ .blank)
    (closer : ∀ bracket, t.kind ≠ .closer bracket) (enough : 2 * ts.length + 3 ≤ steps) :
    ∃ r, readItems? (steps + 1) g.bracket (g.tokens.reverse ++ t :: ts) g.items.reverse (t :: ts) =
      some r ∧ ReadsGroup g (t :: ts) r := by
  obtain ⟨r, read, first⟩ := one t ts scanned blank closer enough
  rw [readItems?_item blank closer (minus?_append ..), read]
  cases first with
  | unclosed leaves => exact ⟨_, rfl, .unclosed (leaves.staysOpen g)⟩
  | @whole used left item cut nonempty reads closed =>
    have shorter : left.length ≤ ts.length := by
      have length := congrArg List.length cut
      have positive := List.length_pos_iff.2 nonempty
      rw [List.length_cons, List.length_append] at length
      omega
    have scannedLeft : Scanned left := fun u mem => scanned u (cut ▸ List.mem_append_right _ mem)
    obtain ⟨r, later, group⟩ := rest (g.grow used [item]) left scannedLeft (by omega)
    refine ⟨r, ?_, cut ▸ group.of_items reads.items⟩
    have tokens : (g.grow used [item]).tokens.reverse ++ left = g.tokens.reverse ++ t :: ts := by
      rw [cut]
      simp [Group.grow]
    have items : (g.grow used [item]).items.reverse = g.items.reverse ++ [item] := by
      simp [Group.grow]
    rw [tokens, items] at later
    simp only [Option.bind_some, closed, Bool.false_eq_true, if_false]
    exact later

/-- A group is read to its end at a closing bracket, of its own kind or of another. -/
theorem groupReads_closer (steps : Nat) (g : Group) {t : Token} {ts : List Token} {closer : Bracket}
    (kind : t.kind = .closer closer) :
    ∃ r, readItems? (steps + 1) g.bracket (g.tokens.reverse ++ t :: ts) g.items.reverse (t :: ts) =
      some r ∧ ReadsGroup g (t :: ts) r := by
  have blank : t.kind ≠ .blank := by simp [kind]
  have closes : g.Closes [t] (g.close closer t) := Group.closes_closer kind
  have next : sliceFrom? (t :: ts) 1 = some ts := rfl
  rw [readItems?, skipBlanks?_cons blank]
  simp only [Option.bind_eq_bind, Option.bind_some, minus?_append, kind]
  by_cases same : closer = g.bracket
  · refine ⟨(.list g.items.reverse, ts), ?_, ?_⟩
    · simp only [if_pos same, next]
      rfl
    · rw [Group.close, if_pos same.symm] at closes
      exact .closed rfl closes rfl
  · have upTo : sliceTo? (g.tokens.reverse ++ t :: ts) (g.tokens.reverse.length + 1) =
        some (g.tokens.reverse ++ [t]) := by
      rw [sliceTo?, if_pos (by simp), List.take_length_add_append]
      rfl
    refine ⟨(.error ⟨.mismatched, g.tokens.reverse ++ [t]⟩, ts), ?_, ?_⟩
    · simp only [if_neg same, next, upTo]
      rfl
    · rw [Group.close, if_neg (Ne.symm same), List.reverse_cons] at closes
      exact .closed rfl closes rfl

/-- A group is read to its end from a token on that is not blank, if S-expressions and what is left
of a group can be read. -/
theorem groupReads_cons {steps : Nat} (one : OneReads steps) (rest : GroupReads steps) (g : Group)
    {t : Token} {ts : List Token} (scanned : Scanned (t :: ts)) (blank : t.kind ≠ .blank)
    (enough : 2 * ts.length + 3 ≤ steps) :
    ∃ r, readItems? (steps + 1) g.bracket (g.tokens.reverse ++ t :: ts) g.items.reverse (t :: ts) =
      some r ∧ ReadsGroup g (t :: ts) r := by
  by_cases closer : ∃ bracket, t.kind = .closer bracket
  · obtain ⟨bracket, kind⟩ := closer
    exact groupReads_closer steps g kind
  · exact groupReads_item one rest g scanned blank (not_exists.1 closer) enough

/-- **A group**, if S-expressions and what is left of a group can be read. -/
theorem groupReads_succ {steps : Nat} (one : OneReads steps) (rest : GroupReads steps) :
    GroupReads (steps + 1) := by
  intro g remaining scanned enough
  have blanks : ReadsItems (remaining.takeWhile Token.isBlank) [] :=
    readsItems_blanks blank_of_mem_takeWhile
  have whole := List.takeWhile_append_dropWhile (p := Token.isBlank) (l := remaining)
  have notBlank : ∀ t ∈ (remaining.dropWhile Token.isBlank).head?, t.kind ≠ .blank := by
    intro t first
    have kept := List.head?_dropWhile_not Token.isBlank remaining
    rw [first] at kept
    simpa [Token.isBlank] using kept
  rw [readItems?_skip]
  generalize remaining.takeWhile Token.isBlank = front at blanks whole
  generalize remaining.dropWhile Token.isBlank = back at whole notBlank ⊢
  subst whole
  have tokens : g.tokens.reverse ++ (front ++ back) = (g.grow front []).tokens.reverse ++ back := by
    simp [Group.grow]
  rw [tokens]
  cases back with
  | nil => exact ⟨_, rfl, .of_items blanks (.unclosed (Group.staysOpen_nil _))⟩
  | cons t ts =>
    have scannedBack : Scanned (t :: ts) := fun u mem => scanned u (List.mem_append_right _ mem)
    rw [List.length_append, List.length_cons] at enough
    obtain ⟨r, read, group⟩ := groupReads_cons one rest (g.grow front []) scannedBack
      (notBlank t rfl) (by omega)
    exact ⟨r, read, group.of_items blanks⟩

/-- S-expressions and groups are read by descent. -/
theorem reads_by_descent (steps : Nat) : OneReads steps ∧ GroupReads steps := by
  induction steps with
  | zero => exact ⟨fun _ _ _ _ _ enough => by omega, fun _ _ _ enough => by omega⟩
  | succ steps ih => exact ⟨oneReads_succ ih.2, groupReads_succ ih.1 ih.2⟩

/-! ## What is read at the top level -/

/-- **The first S-expression** of tokens is the first that a run over them completes, and the run
goes on with the tokens that are left. -/
theorem readOne?_run {depth : Nat} {t : Token} {ts : List Token} (scanned : Scanned (t :: ts))
    (blank : t.kind ≠ .blank) (enough : 2 * ts.length + 3 ≤ depth) :
    ∃ used sexp rest, readOne? depth (t :: ts) = some (sexp, rest) ∧ t :: ts = used ++ rest ∧
      used ≠ [] ∧ run [] (t :: ts) = ⟨sexp, used⟩ :: run [] rest := by
  by_cases closer : ∃ bracket, t.kind = .closer bracket
  · obtain ⟨bracket, kind⟩ := closer
    refine ⟨[t], .error ⟨.unopened, [t]⟩, ts, ?_, rfl, List.cons_ne_nil t [], ?_⟩
    · obtain ⟨steps, rfl⟩ : ∃ steps, depth = steps + 1 := ⟨depth - 1, by omega⟩
      rw [readOne?, skipBlanks?_cons blank]
      simp only [Option.bind_eq_bind, Option.bind_some, kind]
      rfl
    · rw [run]
      simp [step, kind]
  · obtain ⟨r, read, first⟩ :=
      (reads_by_descent depth).1 t ts scanned blank (not_exists.1 closer) enough
    cases first with
    | @whole used rest sexp cut nonempty reads closed =>
      refine ⟨used, sexp, rest, read, cut, nonempty, ?_⟩
      rw [cut, run_append, reads []]
      simp [deliver]
    | unclosed leaves =>
      refine ⟨t :: ts, _, [], read, (List.append_nil _).symm, List.cons_ne_nil t ts, ?_⟩
      obtain ⟨inner, left, stillOpen, all⟩ := leaves []
      obtain ⟨g, outer, rfl⟩ := List.exists_cons_of_ne_nil stillOpen
      rw [run_eq_feed, left, List.append_nil, List.nil_append]
      simp only [finish, all]
      rfl

/-- Blanks between S-expressions are skipped. -/
theorem run_dropWhile_isBlank (ts : List Token) :
    run [] (ts.dropWhile Token.isBlank) = run [] ts := by
  rw [← run_blanks blank_of_mem_takeWhile, List.takeWhile_append_dropWhile]

/-- All S-expressions are read from a place on where blanks have been skipped. -/
theorem readFrom?_eq {depth steps : Nat} {remaining : List Token} (scanned : Scanned remaining)
    (deep : 2 * remaining.length + 1 ≤ depth) (enough : remaining.length < steps)
    (skipped : remaining.dropWhile Token.isBlank = remaining) :
    readFrom? depth steps remaining =
      some ((run [] remaining).map fun d => ⟨d.sexp, d.span⟩) := by
  induction steps generalizing remaining with
  | zero => cases enough
  | succ steps ih =>
    cases remaining with
    | nil => rfl
    | cons t ts =>
      have blank : t.kind ≠ .blank := by
        intro blank
        have length := congrArg List.length skipped
        have shorter := (List.dropWhile_sublist (l := ts) Token.isBlank).length_le
        rw [List.dropWhile_cons_of_pos (by simp [Token.isBlank, blank]), List.length_cons] at length
        omega
      rw [List.length_cons] at deep enough
      obtain ⟨used, sexp, rest, read, cut, nonempty, completed⟩ :=
        readOne?_run scanned blank (by omega)
      have consumed : minus? (t :: ts).length rest.length = .some used.length := by
        rw [cut]
        exact minus?_append used rest
      have front : sliceTo? (t :: ts) used.length = .some used := by
        rw [cut, sliceTo?, if_pos (by simp), List.take_left]
      have shorter : (rest.dropWhile Token.isBlank).length < steps ∧
          2 * (rest.dropWhile Token.isBlank).length + 1 ≤ depth := by
        have length := congrArg List.length cut
        have positive := List.length_pos_iff.2 nonempty
        have le := (List.dropWhile_sublist (l := rest) Token.isBlank).length_le
        rw [List.length_cons, List.length_append] at length
        omega
      have scannedRest : Scanned (rest.dropWhile Token.isBlank) := fun u mem =>
        scanned u (cut ▸ List.mem_append_right _ ((List.dropWhile_sublist _).mem mem))
      have later := ih scannedRest shorter.2 shorter.1 (List.dropWhile_idempotent ..)
      rw [run_dropWhile_isBlank] at later
      rw [readFrom?, read, completed]
      · simp only [Option.bind_eq_bind, Option.bind_some, consumed, front, skipBlanks?_eq, later]
        rfl
      · exact List.cons_ne_nil t ts

/-- **Reading does not break off**, and by descent the same is read as with a stack of groups. -/
theorem readAll?_eq {tokens : List Token} (scanned : Scanned tokens) :
    readAll? tokens = some (Sexp.readAll tokens) := by
  have le := (List.dropWhile_sublist (l := tokens) Token.isBlank).length_le
  have scannedRest : Scanned (tokens.dropWhile Token.isBlank) := fun u mem =>
    scanned u ((List.dropWhile_sublist _).mem mem)
  have read : readFrom? (2 * tokens.length + 1) (tokens.length + 1)
      (tokens.dropWhile Token.isBlank) = _ :=
    readFrom?_eq scannedRest (by omega) (by omega) (List.dropWhile_idempotent ..)
  rw [run_dropWhile_isBlank] at read
  rw [readAll?, skipBlanks?_eq]
  exact read

end Guarded

end Tyro
