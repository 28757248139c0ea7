import Tyro.Proofs.Sexp.FilterMap
import Tyro.Proofs.Sexp.Invariant

/-!
# Reading at another place

A text that stands `n` bytes further on is read as the same S-expressions, each `n` bytes further
on: the places of tokens occur in S-expressions only as the places of the tokens in errors. `shift`
moves tokens, errors, S-expressions and what holds them.

* `scanFrom_add` moves the scan, and `run_shift` the run of the reader: to move tokens is one way to
  replace them by others.
* The span of a datum moves with its tokens, as one of them is not blank (`significant_of_mem_run`).
* `readAll_shift` puts these together, with spans.
-/

namespace Tyro

/-! ## Moving -/

/-- The span that is `n` bytes further on. -/
def Span.shift (n : Nat) (s : Span) : Span := ⟨s.start + n, s.stop + n⟩

/-- The token that stands `n` bytes further on. -/
def Token.shift (n : Nat) (t : Token) : Token := { t with span := t.span.shift n }

/-- The failure to read that is `n` bytes further on. -/
def ReadError.shift (n : Nat) (e : ReadError) : ReadError := ⟨e.fault, e.tokens.map (Token.shift n)⟩

namespace Sexp

mutual

/-- The S-expression that stands `n` bytes further on. Only errors show that it does. -/
def shift (n : Nat) : Sexp → Sexp
  | .string content => .string content
  | .number value => .number value
  | .boolean value => .boolean value
  | .name word => .name word
  | .list items => .list (shiftAll n items)
  | .error e => .error (e.shift n)

/-- The S-expressions that stand `n` bytes further on. -/
def shiftAll (n : Nat) : List Sexp → List Sexp
  | [] => []
  | item :: items => item.shift n :: shiftAll n items

end

mutual

/-- To move an S-expression is to move the tokens in it. -/
theorem shift_eq_filterMap (n : Nat) :
    (sexp : Sexp) → sexp.shift n = sexp.filterMap (some ∘ Token.shift n)
  | .string _ => by rw [shift, filterMap]
  | .number _ => by rw [shift, filterMap]
  | .boolean _ => by rw [shift, filterMap]
  | .name _ => by rw [shift, filterMap]
  | .list items => by rw [shift, filterMap, shiftAll_eq_filterMapAll n items]
  | .error e => by
    rw [shift, filterMap, ReadError.shift, ReadError.filterMap, List.filterMap_eq_map]

/-- To move several S-expressions is to move the tokens in them. -/
theorem shiftAll_eq_filterMapAll (n : Nat) :
    (items : List Sexp) → shiftAll n items = filterMapAll (some ∘ Token.shift n) items
  | [] => by rw [shiftAll, filterMapAll]
  | item :: items => by
    rw [shiftAll, filterMapAll, shift_eq_filterMap n item, shiftAll_eq_filterMapAll n items]

end

/-- The located S-expression that stands `n` bytes further on. -/
def Located.shift (n : Nat) (d : Located) : Located := ⟨d.sexp.shift n, d.span.shift n⟩

end Sexp

/-- The datum that stands `n` bytes further on. -/
def Datum.shift (n : Nat) (d : Datum) : Datum := ⟨d.sexp.shift n, d.tokens.map (Token.shift n)⟩

/-- The open group that stands `n` bytes further on. -/
def Reader.Group.shift (n : Nat) (g : Group) : Group :=
  ⟨g.bracket, g.tokens.map (Token.shift n), g.items.map (Sexp.shift n)⟩

/-- A text that begins `n` bytes further on has its tokens `n` bytes further on. -/
theorem Token.scanFrom_add (offset n : Nat) (cs : List Char) :
    scanFrom (offset + n) cs = (scanFrom offset cs).map (shift n) := by
  fun_induction scanFrom offset cs with
  | case1 => rw [scanFrom, List.map_nil]
  | case2 offset c cs kind more found text stop ih =>
    have moved : offset + n + Text.byteSize text = stop + n := Nat.add_right_comm offset n _
    rw [scanFrom, found, List.map_cons, ← ih]
    simp only [shift, Span.shift, moved, text]

/-- To move tokens is faithful. -/
theorem Token.isFaithful_shift (n : Nat) : IsFaithful (some ∘ shift n) where
  kind found := Option.some.inj found ▸ rfl
  text found := Option.some.inj found ▸ rfl
  blank := nofun

namespace Reader

/-! ## Runs -/

/-- **Reading at another place.** Tokens `n` bytes further on make the same data, `n` bytes further
on. -/
theorem run_shift (n : Nat) (groups : List Group) (ts : List Token) :
    run (groups.map (Group.shift n)) (ts.map (Token.shift n)) =
      (run groups ts).map (Datum.shift n) := by
  have sexps : Sexp.shift n = Sexp.filterMap (some ∘ Token.shift n) :=
    funext (Sexp.shift_eq_filterMap n)
  have group : Group.shift n = Group.filterMap (some ∘ Token.shift n) := by
    funext g
    rw [Group.shift, Group.filterMap, List.filterMap_eq_map, sexps]
  have datum : Datum.shift n = Datum.filterMap (some ∘ Token.shift n) := by
    funext d
    rw [Datum.shift, Datum.filterMap, List.filterMap_eq_map, sexps]
  have moved := run_filterMap (Token.isFaithful_shift n) groups ts
  rw [List.filterMap_eq_map] at moved
  rw [group, datum, moved]

/-! ## Spans -/

/-- Some token is not blank. -/
def Significant (ts : List Token) : Prop := ∃ t ∈ ts, t.isBlank = false

/-- More tokens around significant ones are significant. -/
theorem Significant.mono {ts us : List Token} (h : Significant ts) (sub : ts ⊆ us) :
    Significant us := by
  obtain ⟨t, mem, sign⟩ := h
  exact ⟨t, sub mem, sign⟩

/-- A token that is not blank is significant by itself. -/
theorem significant_singleton {t : Token} (notBlank : t.kind ≠ .blank) : Significant [t] :=
  ⟨t, List.mem_singleton_self t, decide_eq_false notBlank⟩

/-- Groups and data have a token that is not blank. -/
theorem significant_invariant :
    Invariant (fun _ => True) (fun g => Significant g.tokens) (fun _ tokens => Significant tokens)
    where
  atom _ kind := significant_singleton fun blank => by simp [blank] at kind
  single _ _ notBlank := significant_singleton notBlank
  opener _ kind := significant_singleton (by rw [kind]; nofun)
  blank _ sign := sign.mono (List.subset_cons_self _ _)
  item sign _ := sign.mono (List.subset_append_left _ _)
  closer _ _ sign := sign.mono (List.subset_cons_self _ _)
  unclosed nonempty all := by
    obtain ⟨g, outer, rfl⟩ := List.exists_cons_of_ne_nil nonempty
    exact (all g List.mem_cons_self).mono (List.subset_append_left _ _)

/-- All data of a text have a token that is not blank. -/
theorem significant_of_mem_run {ts : List Token} {d : Datum} (h : d ∈ run [] ts) :
    Significant d.tokens := by
  have sign := significant_invariant.run (List.forall_mem_nil _) (fun _ _ => trivial) d h
  exact sign.mono (List.reverse_subset.2 (List.Subset.refl _))

end Reader

/-- The span that covers two moves with them. -/
theorem Span.cover_shift (n : Nat) (a b : Span) :
    (a.shift n).cover (b.shift n) = (a.cover b).shift n := by
  simp only [cover, shift, Nat.add_min_add_right, Nat.add_max_add_right]

/-- The span that covers several moves with them. -/
theorem Span.foldl_cover_shift (n : Nat) (first : Span) (rest : List Span) :
    (rest.map (shift n)).foldl cover (first.shift n) = (rest.foldl cover first).shift n := by
  induction rest generalizing first with
  | nil => rfl
  | cons s rest ih => rw [List.map_cons, List.foldl_cons, List.foldl_cons, cover_shift, ih]

/-- The span of a datum moves with it, if one of its tokens is not blank. -/
theorem Datum.span_shift (n : Nat) {d : Datum} (sign : Reader.Significant d.tokens) :
    (d.shift n).span = d.span.shift n := by
  have kept : ((d.shift n).tokens.filter fun t => !t.isBlank).map (·.span) =
      ((d.tokens.filter fun t => !t.isBlank).map (·.span)).map (Span.shift n) := by
    rw [Datum.shift, List.filter_map, List.map_map, List.map_map]
    rfl
  unfold span
  rw [kept]
  cases spans : (d.tokens.filter fun t => !t.isBlank).map (·.span) with
  | nil =>
    obtain ⟨t, mem, notBlank⟩ := sign
    have noSigns := List.map_eq_nil_iff.1 spans
    have keeps := List.filter_eq_nil_iff.1 noSigns t mem
    rw [notBlank] at keeps
    exact absurd rfl keeps
  | cons first rest => exact Span.foldl_cover_shift n first rest

/-- All that is read from tokens `n` bytes further on is `n` bytes further on. -/
theorem Sexp.readAll_shift (n : Nat) (ts : List Token) :
    readAll (ts.map (Token.shift n)) = (readAll ts).map (Located.shift n) := by
  have data := Reader.run_shift n [] ts
  rw [List.map_nil] at data
  unfold readAll
  rw [data, List.map_map, List.map_map]
  refine List.map_congr_left fun d mem => ?_
  have sign := Reader.significant_of_mem_run mem
  simp only [Function.comp_apply, Located.shift, Datum.span_shift n sign]
  rfl

end Tyro
