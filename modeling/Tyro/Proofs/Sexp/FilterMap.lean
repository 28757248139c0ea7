import Tyro.Proofs.Sexp.Stack

/-!
# Reading other tokens

The reader looks at the kind and the text of a token and not at its place, and it takes nothing from
blank tokens. So tokens can be replaced by others of the same kind and text, and blank ones can be
left out as well: a function `Token → Option Token` that does so is faithful (`IsFaithful`).
`filterMap` applies it, as in `List.filterMap`, to the tokens in an error, in an S-expression with
the errors in it, and in what holds them.

* `step_filterMap` is a token that is kept, `step_of_dropped` one that is left out.
* `run_filterMap`: what is read from the other tokens is what was read, with the other tokens in it.
-/

namespace Tyro

/-- What a faithful function keeps has its kind and its text still, and what it leaves out is
blank. -/
structure Token.IsFaithful (f : Token → Option Token) : Prop where
  kind : ∀ {t u}, f t = some u → u.kind = t.kind
  text : ∀ {t u}, f t = some u → u.text = t.text
  blank : ∀ {t}, f t = none → t.kind = .blank

/-- The failure to read with other tokens. -/
def ReadError.filterMap (f : Token → Option Token) (e : ReadError) : ReadError :=
  ⟨e.fault, e.tokens.filterMap f⟩

namespace Sexp

mutual

/-- The S-expression with other tokens. Only errors hold tokens. -/
def filterMap (f : Token → Option Token) : Sexp → Sexp
  | .string content => .string content
  | .number value => .number value
  | .boolean value => .boolean value
  | .name word => .name word
  | .list items => .list (filterMapAll f items)
  | .error e => .error (e.filterMap f)

/-- The S-expressions with other tokens. -/
def filterMapAll (f : Token → Option Token) : List Sexp → List Sexp
  | [] => []
  | item :: items => item.filterMap f :: filterMapAll f items

end

/-- Several S-expressions are given other tokens one by one. -/
theorem filterMapAll_eq_map (f : Token → Option Token) (items : List Sexp) :
    filterMapAll f items = items.map (filterMap f) := by
  induction items with
  | nil => rw [filterMapAll, List.map_nil]
  | cons item items ih => rw [filterMapAll, List.map_cons, ih]

end Sexp

/-- The datum with other tokens. -/
def Datum.filterMap (f : Token → Option Token) (d : Datum) : Datum :=
  ⟨d.sexp.filterMap f, d.tokens.filterMap f⟩

/-- The open group with other tokens. -/
def Reader.Group.filterMap (f : Token → Option Token) (g : Group) : Group :=
  ⟨g.bracket, g.tokens.filterMap f, g.items.map (Sexp.filterMap f)⟩

namespace Reader

variable {f : Token → Option Token} {t u : Token}

/-- A closed group has the other tokens if the group and the bracket have. -/
theorem close_filterMap (found : f t = some u) (g : Group) (bracket : Bracket) :
    (g.filterMap f).close bracket u = (g.close bracket t).filterMap f := by
  unfold Group.close
  by_cases same : g.bracket = bracket
  · rw [if_pos same, if_pos (show (g.filterMap f).bracket = bracket from same), Sexp.filterMap,
      Sexp.filterMapAll_eq_map]
    simp only [Group.filterMap, List.map_reverse]
  · rw [if_neg same, if_neg (show ¬ (g.filterMap f).bracket = bracket from same), Sexp.filterMap]
    simp only [ReadError.filterMap, Group.filterMap, List.filterMap_reverse,
      List.filterMap_cons_some found]

/-- What is handed on has the other tokens if what is handed over has. -/
theorem deliver_filterMap (f : Token → Option Token) (sexp : Sexp) (tokens : List Token)
    (groups : List Group) :
    deliver (sexp.filterMap f) (tokens.filterMap f) (groups.map (Group.filterMap f)) =
      ((deliver sexp tokens groups).1.map (Group.filterMap f),
        (deliver sexp tokens groups).2.map (Datum.filterMap f)) := by
  cases groups with
  | nil =>
    simp only [List.map_nil, deliver, Option.map_some, Datum.filterMap, List.filterMap_reverse]
  | cons g outer =>
    simp only [List.map_cons, deliver, Option.map_none, Group.filterMap, List.filterMap_append]

/-- The other token stands for what the token stands for. -/
theorem StandsFor.filterMap (faithful : Token.IsFaithful f) {sexp : Sexp}
    (stands : StandsFor t sexp) (found : f t = some u) : StandsFor u (sexp.filterMap f) := by
  have kind := faithful.kind found
  have text := faithful.text found
  have error : (Sexp.error ⟨.badToken, [t]⟩).filterMap f = .error ⟨.badToken, [u]⟩ := by
    rw [Sexp.filterMap, ReadError.filterMap, List.filterMap_cons_some found, List.filterMap_nil]
  cases stands with
  | number isNumber read =>
    rw [Sexp.filterMap]
    exact .number (kind.trans isNumber) (text ▸ read)
  | tooLarge isNumber read => exact error ▸ .tooLarge (kind.trans isNumber) (text ▸ read)
  | string isString =>
    rw [Sexp.filterMap, ← text]
    exact .string (kind.trans isString)
  | boolean isBoolean =>
    rw [Sexp.filterMap, ← text]
    exact .boolean (kind.trans isBoolean)
  | name isName =>
    rw [Sexp.filterMap, ← text]
    exact .name (kind.trans isName)
  | bad isBad => exact error ▸ .bad (kind.trans isBad)

/-- A token that is kept does the same with other tokens. -/
theorem step_filterMap (faithful : Token.IsFaithful f) (found : f t = some u)
    (groups : List Group) :
    step (groups.map (Group.filterMap f)) u =
      ((step groups t).1.map (Group.filterMap f),
        (step groups t).2.map (Datum.filterMap f)) := by
  have kind := faithful.kind found
  have one : [t].filterMap f = [u] := by
    rw [List.filterMap_cons_some found, List.filterMap_nil]
  rcases standsFor_cases t with ⟨sexp, stands⟩ | blank | ⟨bracket, opens⟩ | ⟨bracket, closes⟩
  · have delivered := deliver_filterMap f sexp [t] groups
    rw [one] at delivered
    rw [stands.step, (stands.filterMap faithful found).step, delivered]
  · rw [blank] at kind
    cases groups with
    | nil => simp [step, kind, blank]
    | cons g outer => simp [step, kind, blank, Group.filterMap, List.filterMap_cons_some found]
  · rw [opens] at kind
    simp [step, kind, opens, Group.filterMap, found]
  · rw [closes] at kind
    cases groups with
    | nil => simp [step, kind, closes, Datum.filterMap, Sexp.filterMap, ReadError.filterMap, found]
    | cons g outer =>
      have delivered := deliver_filterMap f (g.close bracket t) (t :: g.tokens) outer
      rw [← close_filterMap found, List.filterMap_cons_some found] at delivered
      simp only [step, kind, closes, List.map_cons]
      exact delivered

/-- A token that is left out completes nothing, and the other tokens do not show it. -/
theorem step_of_dropped (faithful : Token.IsFaithful f) (dropped : f t = none)
    (groups : List Group) :
    (step groups t).1.map (Group.filterMap f) = groups.map (Group.filterMap f) ∧
      (step groups t).2 = none := by
  have blank := faithful.blank dropped
  cases groups with
  | nil => simp [step, blank]
  | cons g outer => simp [step, blank, Group.filterMap, List.filterMap_cons_none dropped]

/-- Groups that are open at the end make an error of the other tokens. -/
theorem finish_filterMap (f : Token → Option Token) (groups : List Group) :
    finish (groups.map (Group.filterMap f)) = (finish groups).map (Datum.filterMap f) := by
  cases groups with
  | nil => rfl
  | cons g outer =>
    have tokens : ((g :: outer).map (Group.filterMap f)).flatMap (·.tokens) =
        ((g :: outer).flatMap (·.tokens)).filterMap f := by
      rw [List.flatMap_map, List.filterMap_flatMap]
      rfl
    rw [List.map_cons] at tokens ⊢
    simp only [finish, tokens, Option.map_some, Datum.filterMap, Sexp.filterMap,
      ReadError.filterMap, List.filterMap_reverse]

/-- **Reading other tokens.** Other tokens, in groups that have other tokens, make the same data
with other tokens. -/
theorem run_filterMap (faithful : Token.IsFaithful f) (groups : List Group) (ts : List Token) :
    run (groups.map (Group.filterMap f)) (ts.filterMap f) =
      (run groups ts).map (Datum.filterMap f) := by
  induction ts generalizing groups with
  | nil =>
    rw [List.filterMap_nil, run, run, finish_filterMap]
    cases finish groups <;> rfl
  | cons t ts ih =>
    rw [run]
    dsimp only
    cases found : f t with
    | none =>
      obtain ⟨unseen, nothing⟩ := step_of_dropped faithful found groups
      rw [List.filterMap_cons_none found, nothing, ← unseen, ih, Option.toList_none,
        List.nil_append]
    | some u =>
      rw [List.filterMap_cons_some found, run, step_filterMap faithful found]
      dsimp only
      rw [ih, List.map_append]
      cases (step groups t).2 <;> rfl

end Reader

end Tyro
