import Tyro.Proofs.Sexp.FilterMap

/-!
# Reading without blank tokens

Blank tokens separate others and say nothing else. The reader takes them into its groups, where
their number and place show in one way only: an error keeps the tokens that it concerns, blank ones
included. `compact` drops the blank tokens of the errors in an S-expression.

* `readAll_compact` is the run, with the spans of what is read: they begin and end with tokens that
  are not blank anyway.
* `IsClean` says that no error is inside, at whatever depth. Then there is nothing to drop
  (`readAll_filter_of_isClean`).
-/

namespace Tyro

namespace Sexp

/-! ## Clean S-expressions -/

/-- Nothing in the S-expression, at whatever depth, is an error. -/
def IsClean (sexp : Sexp) : Prop := ∀ e, ¬ sexp.Contains (.error e)

/-- An error is not clean. -/
theorem not_isClean_error (e : ReadError) : ¬ (Sexp.error e).IsClean :=
  fun clean => clean e (.self _)

/-- A list is clean if its items are. -/
theorem isClean_list_iff {items : List Sexp} :
    (Sexp.list items).IsClean ↔ ∀ item ∈ items, item.IsClean := by
  constructor
  · exact fun clean _ mem e inside => clean e (.item mem inside)
  · rintro clean e (_ | ⟨mem, inside⟩)
    exact clean _ mem e inside

mutual

/-- Whether an S-expression is clean can be computed. -/
instance IsClean.decide : (sexp : Sexp) → Decidable sexp.IsClean
  | .string _ => isTrue fun _ => nofun
  | .number _ => isTrue fun _ => nofun
  | .boolean _ => isTrue fun _ => nofun
  | .name _ => isTrue fun _ => nofun
  | .list items =>
    have := IsClean.decideAll items
    decidable_of_iff _ isClean_list_iff.symm
  | .error e => isFalse (not_isClean_error e)

/-- Whether several S-expressions are clean can be computed. -/
instance IsClean.decideAll : (items : List Sexp) → Decidable (∀ item ∈ items, item.IsClean)
  | [] => isTrue (List.forall_mem_nil _)
  | item :: items =>
    have := IsClean.decide item
    have := IsClean.decideAll items
    decidable_of_iff _ List.forall_mem_cons.symm

end

mutual

/-- A clean S-expression has no tokens to replace. -/
theorem IsClean.filterMap_eq (f : Token → Option Token) :
    {sexp : Sexp} → sexp.IsClean → sexp.filterMap f = sexp
  | .string _, _ => by rw [Sexp.filterMap]
  | .number _, _ => by rw [Sexp.filterMap]
  | .boolean _, _ => by rw [Sexp.filterMap]
  | .name _, _ => by rw [Sexp.filterMap]
  | .list _, clean => by rw [Sexp.filterMap, filterMapAll_eq_self f (isClean_list_iff.1 clean)]
  | .error e, clean => absurd clean (not_isClean_error e)

/-- Clean S-expressions have no tokens to replace. -/
theorem filterMapAll_eq_self (f : Token → Option Token) :
    {items : List Sexp} → (∀ item ∈ items, item.IsClean) → filterMapAll f items = items
  | [], _ => by rw [filterMapAll]
  | _ :: _, clean => by
    obtain ⟨first, others⟩ := List.forall_mem_cons.1 clean
    rw [filterMapAll, first.filterMap_eq f, filterMapAll_eq_self f others]

end

/-! ## Without blank tokens -/

/-- The S-expression without the blank tokens in its errors. -/
def compact (sexp : Sexp) : Sexp := sexp.filterMap (Option.guard fun t => !t.isBlank)

/-- The located S-expression without the blank tokens in its errors. -/
def Located.compact (d : Located) : Located := ⟨d.sexp.compact, d.span⟩

end Sexp

/-- To leave out the blank tokens is faithful. -/
theorem Token.isFaithful_guard : IsFaithful (Option.guard fun t => !t.isBlank) where
  kind found := by rw [(Option.guard_eq_some_iff.1 found).1]
  text found := by rw [(Option.guard_eq_some_iff.1 found).1]
  blank dropped := by simpa [isBlank] using Option.guard_eq_none_iff.1 dropped

/-- A datum spans the same without its blank tokens. -/
theorem Datum.span_compact (d : Datum) :
    (d.filterMap (Option.guard fun t => !t.isBlank)).span = d.span := by
  unfold span filterMap
  rw [List.filterMap_eq_filter, List.filter_filter]
  simp only [Bool.and_self]

namespace Sexp

/-- **Reading without blank tokens.** What is read from the tokens that are not blank is what is
read from all of them, in its place, without the blank tokens in errors. -/
theorem readAll_compact (ts : List Token) :
    readAll (ts.filter fun t => !t.isBlank) = (readAll ts).map Located.compact := by
  have data := Reader.run_filterMap Token.isFaithful_guard [] ts
  rw [List.map_nil, List.filterMap_eq_filter] at data
  unfold readAll
  rw [data, List.map_map, List.map_map]
  refine List.map_congr_left fun d _ => ?_
  simp only [Function.comp_apply, Located.compact, Datum.span_compact]
  rfl

/-- Where no error is read, blank tokens leave no trace. -/
theorem readAll_filter_of_isClean {ts : List Token}
    (clean : ∀ d ∈ readAll ts, d.sexp.IsClean) :
    readAll (ts.filter fun t => !t.isBlank) = readAll ts := by
  have same : ∀ d ∈ readAll ts, d.compact = id d := by
    intro d mem
    rw [Located.compact, compact, (clean d mem).filterMap_eq]
    rfl
  rw [readAll_compact, List.map_congr_left same, List.map_id]

end Sexp

end Tyro
