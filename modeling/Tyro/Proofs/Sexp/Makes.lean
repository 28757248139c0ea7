import Tyro.Proofs.Sexp.Alone
import Tyro.Proofs.Sexp.FilterMap

/-!
# The tokens of an S-expression

`Makes ts sexp` says by the tokens alone, without places and without a reader, what they are read
as: a token that stands for itself, or tokens between an opening and a closing bracket that make the
items. If the brackets are of different kinds, the tokens are an error, but what is inside still
makes items: that is what pairs the two brackets.

* `Makes.reads`: tokens that make an S-expression are read as it, whatever groups are open.
* `made_run`: each datum that is read consists of tokens that make its S-expression, or is a closing
  bracket where no group is open, or is what is left at the end (`StaysOpen`).
* `exists_slice`: the tokens of each datum stand together in the text.
* `Makes.place` and `StaysOpen.place` move the tokens to other places.
-/

namespace Tyro

namespace Reader

/-! ## Tokens and what they make -/

mutual

/-- The tokens are those of the S-expression. -/
inductive Makes : List Token → Sexp → Prop
  | single {t : Token} {sexp : Sexp} (stands : StandsFor t sexp) : Makes [t] sexp
  | list {opened closed : Token} {bracket : Bracket} {inside : List Token} {items : List Sexp}
    (opens : opened.kind = .opener bracket) (all : MakesAll inside items)
    (closes : closed.kind = .closer bracket) : Makes (opened :: (inside ++ [closed])) (.list items)
  | mismatched {opened closed : Token} {bracket other : Bracket} {inside : List Token}
    {items : List Sexp} (opens : opened.kind = .opener bracket) (all : MakesAll inside items)
    (closes : closed.kind = .closer other) (differ : bracket ≠ other) :
    Makes (opened :: (inside ++ [closed])) (.error ⟨.mismatched, opened :: (inside ++ [closed])⟩)

/-- The tokens are those of the S-expressions, with blank ones before, between and behind them. -/
inductive MakesAll : List Token → List Sexp → Prop
  | nil : MakesAll [] []
  | blank {t : Token} {ts : List Token} {items : List Sexp} (blank : t.kind = .blank)
    (later : MakesAll ts items) : MakesAll (t :: ts) items
  | item {ts us : List Token} {sexp : Sexp} {items : List Sexp} (first : Makes ts sexp)
    (later : MakesAll us items) : MakesAll (ts ++ us) (sexp :: items)

end

/-- Tokens of S-expressions stand behind one another. -/
theorem MakesAll.append {us : List Token} {others : List Sexp} (h' : MakesAll us others) :
    {ts : List Token} → {items : List Sexp} → MakesAll ts items →
      MakesAll (ts ++ us) (items ++ others)
  | _, _, .nil => h'
  | _, _, .blank sign later => .blank sign (MakesAll.append h' later)
  | _, _, .item first later => by
    rw [List.append_assoc]
    exact .item first (MakesAll.append h' later)

/-- A token that stands for an S-expression is not blank. -/
theorem StandsFor.sign {t : Token} {sexp : Sexp} (h : StandsFor t sexp) : t.kind ≠ .blank := by
  cases h with
  | number kind | tooLarge kind | string kind | boolean kind | name kind | bad kind =>
    rw [kind]
    exact nofun

/-- The tokens of an S-expression begin and end with one that is not blank. -/
theorem Makes.bounded {ts : List Token} {sexp : Sexp} (h : Makes ts sexp) : Bounded ts := by
  cases h with
  | single stands => exact ⟨⟨_, rfl, stands.sign⟩, _, rfl, stands.sign⟩
  | list opens _ closes | mismatched opens _ closes =>
    exact bounded_of_ends (by rw [opens]; exact nofun) (by rw [closes]; exact nofun) _

/-! ## What the tokens make is read from them -/

/-- A token that stands for an S-expression is read as it. -/
theorem StandsFor.reads {t : Token} {sexp : Sexp} (h : StandsFor t sexp) : Reads [t] sexp := by
  intro groups
  simp [feed, h.step]

/-- Brackets of different kinds around tokens that are read as S-expressions are an error. -/
theorem ReadsItems.mismatched {opened closed : Token} {bracket other : Bracket} {ts : List Token}
    {items : List Sexp} (opens : opened.kind = .opener bracket) (h : ReadsItems ts items)
    (closes : closed.kind = .closer other) (differ : bracket ≠ other) :
    Reads (opened :: (ts ++ [closed])) (.error ⟨.mismatched, opened :: (ts ++ [closed])⟩) := by
  intro groups
  have inside := h ⟨bracket, [opened], []⟩ groups
  simp only [feed, step, opens, feed_append, inside, closes]
  simp [Group.close, differ]

mutual

/-- **Tokens that make an S-expression are read as it**, whatever groups are open. -/
theorem Makes.reads {ts : List Token} {sexp : Sexp} : Makes ts sexp → Reads ts sexp
  | .single stands => stands.reads
  | .list opens all closes => all.reads.list opens closes
  | .mismatched opens all closes differ => all.reads.mismatched opens closes differ

/-- Tokens that make S-expressions are read as them inside any group. -/
theorem MakesAll.reads {ts : List Token} {items : List Sexp} :
    MakesAll ts items → ReadsItems ts items
  | .nil => readsItems_nil
  | .blank blank later => (readsItems_blank blank).append later.reads
  | .item first later => first.reads.items.append later.reads

end

/-! ## What is read is made of its tokens -/

/-- The group began with its bracket, and the tokens since then make its items. -/
def Group.Holds (g : Group) : Prop :=
  ∃ opened inside, g.tokens.reverse = opened :: inside ∧ opened.kind = .opener g.bracket ∧
    MakesAll inside g.items.reverse

/-- A group that is closed is made of its tokens. -/
theorem Group.Holds.close {g : Group} (h : g.Holds) {t : Token} {bracket : Bracket}
    (closes : t.kind = .closer bracket) : Makes (t :: g.tokens).reverse (g.close bracket t) := by
  obtain ⟨opened, inside, tokens, opens, all⟩ := h
  unfold Group.close
  rw [List.reverse_cons, tokens, List.cons_append]
  by_cases same : g.bracket = bracket
  · rw [if_pos same]
    exact .list opens all (same ▸ closes)
  · rw [if_neg same]
    exact .mismatched opens all closes same

/-- Tokens that are read as open groups and nothing else. -/
def StaysOpen (ts : List Token) : Prop :=
  ∃ groups, groups ≠ [] ∧ feed [] ts = (groups, []) ∧ opened groups = ts

/-- A datum and its tokens. -/
inductive Made : Datum → Prop
  | whole {ts : List Token} {sexp : Sexp} (makes : Makes ts sexp) : Made ⟨sexp, ts⟩
  | unopened {t : Token} {bracket : Bracket} (closes : t.kind = .closer bracket) :
    Made ⟨.error ⟨.unopened, [t]⟩, [t]⟩
  | unclosed {ts : List Token} (begins : ∃ t ∈ ts.head?, t.kind ≠ .blank) (stays : StaysOpen ts) :
    Made (Reader.unclosed ts)

/-- What is made and delivered joins the innermost group or is handed out. -/
theorem made_deliver {groups : List Group} (holds : ∀ g ∈ groups, g.Holds) {sexp : Sexp}
    {tokens : List Token} (makes : Makes tokens.reverse sexp) :
    (∀ g ∈ (deliver sexp tokens groups).1, g.Holds) ∧
      ∀ d ∈ (deliver sexp tokens groups).2, Made d := by
  cases groups with
  | nil =>
    refine ⟨holds, ?_⟩
    rintro d ⟨⟩
    exact .whole makes
  | cons g outer =>
    obtain ⟨⟨opened, inside, begins, opens, all⟩, others⟩ := List.forall_mem_cons.1 holds
    refine ⟨List.forall_mem_cons.2 ⟨⟨opened, inside ++ tokens.reverse, ?_, opens, ?_⟩, others⟩,
      nofun⟩
    · rw [List.reverse_append, begins, List.cons_append]
    · have last : MakesAll (tokens.reverse ++ []) [sexp] := .item makes .nil
      rw [List.append_nil] at last
      rw [List.reverse_cons]
      exact last.append all

/-- **One token** keeps the groups made of their tokens, and completes only what is. -/
theorem made_step {groups : List Group} (holds : ∀ g ∈ groups, g.Holds) (t : Token) :
    (∀ g ∈ (step groups t).1, g.Holds) ∧ ∀ d ∈ (step groups t).2, Made d := by
  rcases standsFor_cases t with ⟨sexp, stands⟩ | blank | ⟨bracket, opens⟩ | ⟨bracket, closes⟩
  · rw [stands.step]
    exact made_deliver holds (.single stands)
  · unfold step
    rw [blank]
    cases groups with
    | nil => exact ⟨holds, nofun⟩
    | cons g outer =>
      obtain ⟨⟨opened, inside, begins, opens, all⟩, others⟩ := List.forall_mem_cons.1 holds
      refine ⟨List.forall_mem_cons.2 ⟨⟨opened, inside ++ [t], ?_, opens, ?_⟩, others⟩, nofun⟩
      · rw [List.reverse_cons, begins, List.cons_append]
      · have last := MakesAll.append (.blank blank .nil) all
        rwa [List.append_nil] at last
  · unfold step
    rw [opens]
    exact ⟨List.forall_mem_cons.2 ⟨⟨t, [], rfl, opens, .nil⟩, holds⟩, nofun⟩
  · unfold step
    rw [closes]
    cases groups with
    | nil =>
      refine ⟨holds, ?_⟩
      rintro d ⟨⟩
      exact .unopened closes
    | cons g outer =>
      obtain ⟨first, others⟩ := List.forall_mem_cons.1 holds
      exact made_deliver others (first.close closes)

/-- The groups that are open are those that their tokens open. -/
theorem feed_opened_step {groups : List Group} (h : feed [] (opened groups) = (groups, []))
    (t : Token) : feed [] (opened (step groups t).1) = ((step groups t).1, []) := by
  have now := takes_step groups t
  have all := feed_append [] (opened groups) [t]
  rw [h] at all
  generalize taken : step groups t = r at now
  cases now with
  | completes => rfl
  | skipped => rfl
  | joins _ _ tokens =>
    dsimp only
    rw [tokens, all]
    simp [feed, taken]

/-- The tokens of open groups begin with a bracket. -/
theorem sign_of_head?_opened {groups : List Group} (holds : ∀ g ∈ groups, g.Holds)
    (nonempty : groups ≠ []) : ∃ t ∈ (opened groups).head?, t.kind ≠ .blank := by
  induction groups with
  | nil => exact absurd rfl nonempty
  | cons g outer ih =>
    obtain ⟨⟨first, inside, tokens, opens, -⟩, others⟩ := List.forall_mem_cons.1 holds
    rw [opened_cons]
    by_cases innermost : outer = []
    · subst innermost
      rw [tokens]
      exact ⟨first, rfl, by rw [opens]; exact nofun⟩
    · obtain ⟨t, head, sign⟩ := ih others innermost
      exact ⟨t, by rw [List.head?_append, Option.mem_def.1 head]; rfl, sign⟩

/-- **A run** completes only what is made of its tokens. -/
theorem made_run {groups : List Group} (holds : ∀ g ∈ groups, g.Holds)
    (fed : feed [] (opened groups) = (groups, [])) (ts : List Token) :
    ∀ d ∈ run groups ts, Made d := by
  induction ts generalizing groups with
  | nil =>
    intro d mem
    rw [run, Option.mem_toList] at mem
    cases groups with
    | nil => cases mem
    | cons g outer =>
      cases mem
      have nonempty : g :: outer ≠ [] := List.cons_ne_nil g outer
      exact .unclosed (sign_of_head?_opened holds nonempty) ⟨g :: outer, nonempty, fed, rfl⟩
  | cons t ts ih =>
    obtain ⟨holds', completed⟩ := made_step holds t
    intro d mem
    rcases List.mem_append.1 mem with here | later
    · exact completed d (Option.mem_toList.1 here)
    · exact ih holds' (feed_opened_step fed t) d later

/-- **The tokens of each datum stand together**, behind those that were read before. -/
theorem exists_slice (groups : List Group) (ts : List Token) : ∀ d ∈ run groups ts,
    ∃ before behind, opened groups ++ ts = before ++ (d.tokens ++ behind) := by
  induction ts generalizing groups with
  | nil =>
    intro d mem
    rw [run, Option.mem_toList] at mem
    cases groups with
    | nil => cases mem
    | cons g outer =>
      cases mem
      exact ⟨[], [], rfl⟩
  | cons t ts ih =>
    have now := takes_step groups t
    generalize taken : step groups t = r at now
    rw [run_of_step taken]
    intro d mem
    cases now with
    | completes _ tokens =>
      rcases List.mem_cons.1 mem with rfl | later
      · exact ⟨[], ts, by simp [tokens]⟩
      · obtain ⟨before, behind, cut⟩ := ih [] d later
        exact ⟨opened groups ++ t :: before, behind, by simpa [opened] using cut⟩
    | joins _ _ tokens =>
      obtain ⟨before, behind, cut⟩ := ih _ d mem
      rw [tokens] at cut
      exact ⟨before, behind, by simpa using cut⟩
    | skipped outside =>
      obtain ⟨before, behind, cut⟩ := ih [] d mem
      subst outside
      exact ⟨t :: before, behind, by simpa [opened] using cut⟩

/-! ## Groups that stay open -/

/-- Tokens that complete nothing join the open groups. -/
theorem joins_feed {groups : List Group} (nonempty : groups ≠ []) {ts : List Token}
    (nothing : (feed groups ts).2 = []) :
    (feed groups ts).1 ≠ [] ∧ opened (feed groups ts).1 = opened groups ++ ts := by
  induction ts generalizing groups with
  | nil => exact ⟨nonempty, (List.append_nil _).symm⟩
  | cons t ts ih =>
    have now := takes_step groups t
    rw [feed] at nothing ⊢
    generalize taken : step groups t = r at now nothing ⊢
    cases now with
    | completes => cases nothing
    | skipped outside => exact absurd outside nonempty
    | joins _ stillOpen tokens =>
      obtain ⟨later, all⟩ := ih stillOpen nothing
      refine ⟨later, ?_⟩
      rw [all, tokens, List.append_assoc]
      rfl

/-- Blank tokens at the end neither open nor close groups. -/
theorem staysOpen_append_iff {ts bs : List Token} (blank : ∀ b ∈ bs, b.kind = .blank) :
    StaysOpen (ts ++ bs) ↔ StaysOpen ts := by
  unfold StaysOpen
  rw [feed_append]
  have blanks := feed_blanks blank (feed [] ts).1
  constructor
  · rintro ⟨groups, nonempty, fed, all⟩
    obtain ⟨rfl, nothing⟩ := Prod.mk.inj fed
    have stillOpen : (feed [] ts).1 ≠ [] := fun empty => nonempty (blanks.1.2 empty)
    have joined := (joins_feed stillOpen blanks.2).2
    rw [all] at joined
    refine ⟨_, stillOpen, Prod.ext rfl (List.append_eq_nil_iff.1 nothing).1, ?_⟩
    exact (List.append_cancel_right joined).symm
  · rintro ⟨groups, nonempty, fed, all⟩
    rw [fed] at blanks ⊢
    have joined := joins_feed nonempty blanks.2
    refine ⟨_, joined.1, Prod.ext rfl blanks.2, ?_⟩
    rw [joined.2, all]

/-- Tokens whose groups stay open are read as one error. -/
theorem StaysOpen.run {ts : List Token} (h : StaysOpen ts) : run [] ts = [unclosed ts] := by
  obtain ⟨groups, nonempty, fed, all⟩ := h
  have whole := run_append [] ts []
  rw [List.append_nil, fed, run_nil nonempty, all] at whole
  exact whole

/-- Only tokens whose groups stay open are an error of groups that are not closed. -/
theorem StaysOpen.of_made {ts : List Token} (h : Made (unclosed ts)) : StaysOpen ts := by
  generalize isUnclosed : unclosed ts = d at h
  cases h with
  | unopened => cases congrArg Datum.sexp isUnclosed
  | unclosed _ stays =>
    cases isUnclosed
    exact stays
  | whole makes =>
    cases isUnclosed
    cases makes with
    | single stands => cases stands

/-! ## Other places -/

section Places

variable {f : Token → Token}

mutual

/-- Other tokens of the same kinds and texts make the same, with the other tokens in it. -/
theorem Makes.map (faithful : Token.IsFaithful (some ∘ f)) {ts : List Token} {sexp : Sexp} :
    Makes ts sexp → Makes (ts.map f) (sexp.filterMap (some ∘ f))
  | .single stands => .single (stands.filterMap faithful rfl)
  | @Makes.list opened closed bracket inside items opens all closes => by
    rw [Sexp.filterMap, List.map_cons, List.map_append]
    exact .list ((faithful.kind rfl).trans opens) (all.map faithful)
      ((faithful.kind rfl).trans closes)
  | @Makes.mismatched opened closed bracket other inside items opens all closes differ => by
    rw [Sexp.filterMap, ReadError.filterMap, List.filterMap_eq_map, List.map_cons, List.map_append]
    exact .mismatched ((faithful.kind rfl).trans opens) (all.map faithful)
      ((faithful.kind rfl).trans closes) differ

/-- The same of several S-expressions. -/
theorem MakesAll.map (faithful : Token.IsFaithful (some ∘ f)) {ts : List Token}
    {items : List Sexp} :
    MakesAll ts items → MakesAll (ts.map f) (Sexp.filterMapAll (some ∘ f) items)
  | .nil => by
    rw [Sexp.filterMapAll]
    exact .nil
  | .blank blank later => .blank ((faithful.kind rfl).trans blank) (later.map faithful)
  | .item first later => by
    rw [Sexp.filterMapAll, List.map_append]
    exact .item (first.map faithful) (later.map faithful)

end

/-- Other tokens of the same kinds and texts leave their groups open. -/
theorem StaysOpen.map (faithful : Token.IsFaithful (some ∘ f)) {ts : List Token}
    (h : StaysOpen ts) : StaysOpen (ts.map f) := by
  have moved := run_filterMap faithful [] ts
  rw [List.filterMap_eq_map, List.map_nil, h.run, List.map_singleton, unclosed, Datum.filterMap,
    Sexp.filterMap, ReadError.filterMap, List.filterMap_eq_map] at moved
  have made := made_run (List.forall_mem_nil _) rfl (ts.map f) (unclosed (ts.map f))
  rw [moved] at made
  exact .of_made (made List.mem_cons_self)

end Places

end Reader

/-! ## Moving tokens that stand together -/

/-- The token as it stands when the text around it moves from one byte offset to another. -/
def Token.move (here there : Nat) (t : Token) : Token :=
  { t with span := ⟨t.span.start - here + there, t.span.stop - here + there⟩ }

/-- To move tokens is faithful. -/
theorem Token.isFaithful_move (here there : Nat) : IsFaithful (some ∘ move here there) where
  kind found := Option.some.inj found ▸ rfl
  text found := Option.some.inj found ▸ rfl
  blank := nofun

/-- Pieces in their places are moved together. -/
theorem Token.map_move_place (here there : Nat) (ps : List Piece) :
    (place here ps).map (move here there) = place there ps := by
  suffices moved : ∀ n, (place (here + n) ps).map (move here there) = place (there + n) ps from
    moved 0
  induction ps with
  | nil => exact fun _ => rfl
  | cons p ps ih =>
    intro n
    have later := ih (n + Text.byteSize p.chars)
    rw [← Nat.add_assoc, ← Nat.add_assoc] at later
    rw [place, place, List.map_cons, later]
    congr 1
    simp only [move, ofPiece, Token.mk.injEq, Span.mk.injEq, true_and]
    omega

namespace Reader

open Token

/-- Pieces that make an error in one place make it in every place. -/
theorem Makes.place {here : Nat} {ps : List Piece} {fault : ReadFault}
    (h : Makes (place here ps) (.error ⟨fault, place here ps⟩)) (there : Nat) :
    Makes (place there ps) (.error ⟨fault, place there ps⟩) := by
  have moved := h.map (isFaithful_move here there)
  rwa [Sexp.filterMap, ReadError.filterMap, List.filterMap_eq_map, map_move_place] at moved

/-- Pieces that leave their groups open in one place do in every place. -/
theorem StaysOpen.place {here : Nat} {ps : List Piece} (h : StaysOpen (place here ps))
    (there : Nat) : StaysOpen (place there ps) := by
  have moved := h.map (isFaithful_move here there)
  rwa [map_move_place] at moved

end Reader

end Tyro
