import Tyro.Editor.Validate
import Tyro.Proofs.Sexp.Spell

/-!
# What a complete entry leaves open

The verdict on an entry keeps a stack of open brackets of its own. Where it ends as complete, that
stack is at every token the one of the reader, as `verdictFrom_step` says of one token. So the
reader has no group open after the tokens of a complete entry, and none of them is a double quote
that is still open (`closed_of_complete`).
-/

namespace Tyro.Entry

open Reader

/-- The brackets of open groups. -/
abbrev bracketsOf (groups : List Group) : List Bracket := groups.map (·.bracket)

/-- Handing on an S-expression opens and closes no group. -/
theorem bracketsOf_deliver (sexp : Sexp) (tokens : List Token) (groups : List Group) :
    bracketsOf (deliver sexp tokens groups).1 = bracketsOf groups := by
  cases groups <;> rfl

/-- A token that is no bracket changes the verdict only if it is a double quote that no other
follows. -/
theorem verdictFrom_of_not_bracket {t : Token} (opener : ∀ bracket, t.kind ≠ .opener bracket)
    (closer : ∀ bracket, t.kind ≠ .closer bracket) (opened : List Bracket) (ts : List Token) :
    verdictFrom opened (t :: ts) =
      if isLoneQuote t then .incomplete else verdictFrom opened ts := by
  rw [verdictFrom.eq_def]
  dsimp only
  split
  · next kind => exact absurd kind (opener _)
  · next kind => exact absurd kind (closer _)
  · next kind => exact absurd kind (closer _)
  · rfl

/-- **One token.** If an entry is complete from a token on, the token is no double quote that no
other follows, and the entry is complete after it with the groups that the reader has open then. -/
theorem verdictFrom_step {groups : List Group} {t : Token} {ts : List Token}
    (h : verdictFrom (bracketsOf groups) (t :: ts) = .complete) :
    isLoneQuote t = false ∧ verdictFrom (bracketsOf (step groups t).1) ts = .complete := by
  have other (opener : ∀ bracket, t.kind ≠ .opener bracket)
      (closer : ∀ bracket, t.kind ≠ .closer bracket) :
      isLoneQuote t = false ∧ verdictFrom (bracketsOf groups) ts = .complete := by
    rw [verdictFrom_of_not_bracket opener closer] at h
    split at h
    · cases h
    · next quote => exact ⟨eq_false_of_ne_true quote, h⟩
  unfold step
  cases kind : t.kind with
  | opener bracket =>
    unfold verdictFrom at h
    rw [kind] at h
    exact ⟨by simp [isLoneQuote, kind], h⟩
  | closer bracket =>
    refine ⟨by simp [isLoneQuote, kind], ?_⟩
    unfold verdictFrom at h
    rw [kind] at h
    cases groups with
    | nil => cases h
    | cons g outer =>
      by_cases same : g.bracket = bracket
      · simp only [bracketsOf, List.map_cons, if_pos same] at h
        rw [bracketsOf_deliver]
        exact h
      · simp only [bracketsOf, List.map_cons, if_neg same] at h
        cases h
  | blank =>
    have h := other (by rw [kind]; nofun) (by rw [kind]; nofun)
    cases groups <;> exact h
  | _ =>
    rw [bracketsOf_deliver]
    exact other (by rw [kind]; nofun) (by rw [kind]; nofun)

/-- **The tokens of a complete entry.** None is a double quote that no other follows, and the reader
has no group open after them. -/
theorem closed_of_complete {groups : List Group} {ts : List Token}
    (h : verdictFrom (bracketsOf groups) ts = .complete) :
    (∀ t ∈ ts, isLoneQuote t = false) ∧ (feed groups ts).1 = [] := by
  induction ts generalizing groups with
  | nil =>
    refine ⟨List.forall_mem_nil _, ?_⟩
    rw [verdictFrom] at h
    split at h
    · next empty => exact List.map_eq_nil_iff.1 (List.isEmpty_iff.1 empty)
    · cases h
  | cons t ts ih =>
    obtain ⟨quote, later⟩ := verdictFrom_step h
    obtain ⟨quotes, closed⟩ := ih later
    exact ⟨List.forall_mem_cons.2 ⟨quote, quotes⟩, closed⟩

end Tyro.Entry
