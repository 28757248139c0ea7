import Mathlib.Data.List.Induction
import Tyro.Proofs.Sexp.Entries

/-!
# Forms that stand alone

Between the S-expressions of a list of tokens there are only blank tokens, and the tokens of each of
them are read as it by themselves (`Parted`, `parted_run`). Only the last one may hold more tokens
than it needs: the error of a group that is never closed takes all tokens to the end, blank ones
included. `Sexp.UpToBlanks` is what becomes of it without them.

What makes this true is that the reader starts afresh after each S-expression: either the groups
that are open are closed by some token, and nothing before or after their tokens matters
(`run_opened`), or they stay open, however many of the tokens are there.
-/

namespace Tyro

/-- The first S-expression is the second, or both are errors of an unclosed group, and the first has
blank tokens more at its end. -/
inductive Sexp.UpToBlanks : Sexp → Sexp → Prop
  | same (sexp : Sexp) : UpToBlanks sexp sexp
  | unclosed (tokens : List Token) {blanks : List Token} (blank : ∀ t ∈ blanks, t.kind = .blank) :
    UpToBlanks (.error ⟨.unclosed, tokens ++ blanks⟩) (.error ⟨.unclosed, tokens⟩)

namespace Reader

/-! ## Tokens in open groups -/

/-- The tokens from the outermost open bracket on. -/
def opened (groups : List Group) : List Token := (groups.flatMap (·.tokens)).reverse

/-- The tokens of the innermost group stand behind those of the groups around it. -/
theorem opened_cons (g : Group) (outer : List Group) :
    opened (g :: outer) = opened outer ++ g.tokens.reverse := by
  rw [opened, List.flatMap_cons, List.reverse_append, opened]

/-- What one token does: it completes an S-expression of all the tokens in open groups and itself,
or it joins them, or it is blank where no group is open. -/
inductive Takes (groups : List Group) (t : Token) : List Group × Option Datum → Prop
  | completes {d : Datum} (sign : t.kind ≠ .blank) (tokens : d.tokens = opened groups ++ [t]) :
    Takes groups t ([], some d)
  | joins {groups' : List Group} (sign : groups = [] → t.kind ≠ .blank) (stillOpen : groups' ≠ [])
    (tokens : opened groups' = opened groups ++ [t]) : Takes groups t (groups', none)
  | skipped (outside : groups = []) (blank : t.kind = .blank) : Takes groups t ([], .none)

/-- What is delivered completes an S-expression or joins the group around it. -/
theorem takes_deliver {t : Token} (sign : t.kind ≠ .blank) {sexp : Sexp} {tokens : List Token}
    {groups outer : List Group} (all : opened outer ++ tokens.reverse = opened groups ++ [t]) :
    Takes groups t (deliver sexp tokens outer) := by
  cases outer with
  | nil =>
    refine .completes sign ?_
    rw [← all]
    rfl
  | cons g outer =>
    refine .joins (fun _ => sign) (List.cons_ne_nil _ _) ?_
    rw [← all, opened_cons, opened_cons]
    simp

/-- **One token** does one of these things. -/
theorem takes_step (groups : List Group) (t : Token) : Takes groups t (step groups t) := by
  unfold step
  cases kind : t.kind with
  | blank =>
    cases groups with
    | nil => exact .skipped rfl kind
    | cons g outer =>
      refine .joins nofun (List.cons_ne_nil _ _) ?_
      rw [opened_cons, opened_cons]
      simp
  | opener bracket =>
    refine .joins (fun _ => by rw [kind]; nofun) (List.cons_ne_nil _ _) ?_
    rw [opened_cons]
    rfl
  | closer bracket =>
    have sign : t.kind ≠ .blank := by rw [kind]; nofun
    cases groups with
    | nil => exact .completes sign rfl
    | cons g outer =>
      refine takes_deliver sign ?_
      rw [opened_cons, List.reverse_cons, List.append_assoc]
  | bad | number | string | name | boolean =>
    exact takes_deliver (by rw [kind]; nofun) rfl

/-- A token that has been taken leaves the others to the groups that are then open. -/
theorem run_of_step {groups groups' : List Group} {t : Token} {d : Option Datum}
    (taken : step groups t = (groups', d)) (ts : List Token) :
    run groups (t :: ts) = d.toList ++ run groups' ts := by
  simp only [run, taken]

/-! ## Open groups -/

/-- The tokens begin and end with one that is not blank. -/
def Bounded (ts : List Token) : Prop :=
  (∃ t ∈ ts.head?, t.kind ≠ .blank) ∧ ∃ t ∈ ts.getLast?, t.kind ≠ .blank

/-- Tokens between two that are not blank are bounded by these. -/
theorem bounded_of_ends {first last : Token} (begins : first.kind ≠ .blank)
    (ends : last.kind ≠ .blank) (ts : List Token) : Bounded (first :: (ts ++ [last])) := by
  refine ⟨⟨first, rfl, begins⟩, last, ?_, ends⟩
  rw [← List.cons_append]
  exact List.getLast?_concat

/-- The error of tokens whose group is not closed. -/
def unclosed (tokens : List Token) : Datum := ⟨.error ⟨.unclosed, tokens⟩, tokens⟩

/-- Groups that are open at the end are an error. -/
theorem run_nil {groups : List Group} (nonempty : groups ≠ []) :
    run groups [] = [unclosed (opened groups)] := by
  obtain ⟨g, outer, rfl⟩ := List.exists_cons_of_ne_nil nonempty
  rfl

/-- **Open groups** are closed by some token, and the tokens up to there are read as the same with
nothing behind them; or they stay open, and then any number of the tokens leaves them open. -/
theorem run_opened {groups : List Group} (nonempty : groups ≠ []) (ts : List Token) :
    (∃ used last rest d, ts = used ++ last :: rest ∧ last.kind ≠ .blank ∧
      d.tokens = opened groups ++ (used ++ [last]) ∧ run groups (used ++ [last]) = [d] ∧
      run groups ts = d :: run [] rest) ∨
    ∀ core tail, ts = core ++ tail → run groups core = [unclosed (opened groups ++ core)] := by
  induction ts generalizing groups with
  | nil =>
    refine .inr fun core tail cut => ?_
    obtain ⟨rfl, -⟩ := List.append_eq_nil_iff.1 cut.symm
    rw [run_nil nonempty, List.append_nil]
  | cons t ts ih =>
    have now := takes_step groups t
    generalize taken : step groups t = r at now
    cases now with
    | @completes d sign tokens =>
      exact .inl ⟨[], t, ts, d, rfl, sign, tokens, run_of_step taken [], run_of_step taken ts⟩
    | skipped outside blank => exact absurd outside nonempty
    | @joins groups' _ stillOpen tokens =>
      have goes (us : List Token) : run groups (t :: us) = run groups' us := run_of_step taken us
      rcases ih stillOpen with ⟨used, last, rest, d, rfl, sign, all, alone, later⟩ | open'
      · refine .inl ⟨t :: used, last, rest, d, rfl, sign, ?_, ?_, ?_⟩
        · rw [all, tokens, List.append_assoc]
          rfl
        · rw [List.cons_append, goes, alone]
        · rw [goes, later]
      · refine .inr fun core tail cut => ?_
        cases core with
        | nil => rw [run_nil nonempty, List.append_nil]
        | cons c core =>
          rw [List.cons_append] at cut
          obtain ⟨rfl, others⟩ := List.cons.inj cut
          rw [goes, open' core tail others, tokens, List.append_assoc]
          rfl

/-! ## All tokens -/

/-- Tokens parted into data, with blank tokens before, between and after them. Each datum has a core
that begins and ends with a token that is not blank and is read as it alone. -/
inductive Parted : List Token → List Datum → Prop
  | blanks {ts : List Token} (blank : ∀ t ∈ ts, t.kind = .blank) : Parted ts []
  | datum {gap core tail rest : List Token} {d : Datum} {ds : List Datum} {sexp : Sexp}
    (gapBlank : ∀ t ∈ gap, t.kind = .blank) (bounded : Bounded core)
    (tailBlank : ∀ t ∈ tail, t.kind = .blank) (tokens : d.tokens = core ++ tail)
    (alone : run [] core = [⟨sexp, core⟩]) (same : d.sexp.UpToBlanks sexp)
    (others : Parted rest ds) : Parted (gap ++ (core ++ rest)) (d :: ds)

/-- Blank tokens in front belong to no datum. -/
theorem Parted.cons {t : Token} (blank : t.kind = .blank) {ts : List Token} {ds : List Datum}
    (h : Parted ts ds) : Parted (t :: ts) ds := by
  cases h with
  | blanks others => exact .blanks (List.forall_mem_cons.2 ⟨blank, others⟩)
  | datum gapBlank bounded tailBlank tokens alone same others =>
    exact .datum (List.forall_mem_cons.2 ⟨blank, gapBlank⟩) bounded tailBlank tokens alone same
      others

/-- A datum that is read from its own tokens alone stands in front of the others. -/
theorem Parted.alone {d : Datum} {rest : List Token} {ds : List Datum} (bounded : Bounded d.tokens)
    (alone : run [] d.tokens = [d]) (others : Parted rest ds) :
    Parted (d.tokens ++ rest) (d :: ds) := by
  have parted : Parted ([] ++ (d.tokens ++ rest)) (d :: ds) :=
    .datum (List.forall_mem_nil _) bounded (List.forall_mem_nil _) (List.append_nil _).symm alone
      (.same _) others
  exact parted

/-- Tokens that are not blank are followed by blank ones at the end. -/
theorem exists_trailing_blanks {t : Token} (sign : t.kind ≠ .blank) (ts : List Token) :
    ∃ core tail, ts = core ++ tail ∧ Bounded (t :: core) ∧ ∀ u ∈ tail, u.kind = .blank := by
  induction ts using List.reverseRecOn with
  | nil => exact ⟨[], [], rfl, ⟨⟨t, rfl, sign⟩, t, rfl, sign⟩, List.forall_mem_nil _⟩
  | append_singleton ts last ih =>
    by_cases blank : last.kind = .blank
    · obtain ⟨core, tail, rfl, bounded, tailBlank⟩ := ih
      refine ⟨core, tail ++ [last], List.append_assoc .., bounded, ?_⟩
      exact List.forall_mem_append.2 ⟨tailBlank, List.forall_mem_singleton.2 blank⟩
    · exact ⟨ts ++ [last], [], (List.append_nil _).symm, bounded_of_ends sign blank ts,
        List.forall_mem_nil _⟩

/-- **All tokens** are parted into what is read from them. -/
theorem parted_run (ts : List Token) : Parted ts (run [] ts) := by
  -- By the number of tokens: what stands behind an S-expression is read afresh.
  induction length : ts.length using Nat.strongRecOn generalizing ts with
  | _ n ih =>
    subst length
    cases ts with
    | nil => exact .blanks (List.forall_mem_nil _)
    | cons t ts =>
      have now := takes_step [] t
      generalize taken : step [] t = r at now
      cases now with
      | skipped outside blank =>
        rw [run_of_step taken]
        exact (ih ts.length (Nat.lt_succ_self _) ts rfl).cons blank
      | @completes d sign tokens =>
        have tokens : d.tokens = [t] := tokens
        have later := ih ts.length (Nat.lt_succ_self _) ts rfl
        have parted : Parted (d.tokens ++ ts) (d :: run [] ts) := by
          refine .alone ?_ ?_ later
          · rw [tokens]
            exact ⟨⟨t, rfl, sign⟩, t, rfl, sign⟩
          · rw [tokens]
            exact run_of_step taken []
        rw [run_of_step taken]
        rwa [tokens] at parted
      | @joins groups sign stillOpen tokens =>
        have tokens : opened groups = [t] := tokens
        have goes (us : List Token) : run [] (t :: us) = run groups us := run_of_step taken us
        rw [goes]
        rcases run_opened stillOpen ts with
          ⟨used, last, rest, d, rfl, sign', all, alone, later⟩ | open'
        · have shorter : rest.length < (t :: (used ++ last :: rest)).length := by
            simp
            omega
          have all : d.tokens = t :: (used ++ [last]) := by rw [all, tokens, List.singleton_append]
          have parted : Parted (d.tokens ++ rest) (d :: run [] rest) := by
            refine .alone ?_ ?_ (ih rest.length shorter rest rfl)
            · rw [all]
              exact bounded_of_ends (sign rfl) sign' used
            · rw [all, goes, alone]
          rw [later]
          simpa [all] using parted
        · rw [tokens] at open'
          obtain ⟨core, tail, rfl, bounded, tailBlank⟩ := exists_trailing_blanks (sign rfl) ts
          have alone : run [] (t :: core) = [unclosed (t :: core)] :=
            (goes core).trans (open' core tail rfl)
          rw [open' (core ++ tail) [] (List.append_nil _).symm]
          exact .datum (List.forall_mem_nil _) bounded tailBlank rfl alone
            (.unclosed (t :: core) tailBlank) (.blanks tailBlank)

end Reader

end Tyro
