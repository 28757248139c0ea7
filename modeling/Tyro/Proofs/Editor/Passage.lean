import Tyro.Proofs.Editor.Verdict

/-!
# How far a verdict is open

The verdict on an entry is open up to the first token that decides it: a closing bracket that closes
nothing or the wrong bracket, or a double quote that no other follows.

* `Passes opened later ts`: the tokens decide nothing. With the brackets `opened` before them, the
  brackets `later` are open after them, and what follows is judged from there
  (`Passes.verdictFrom_append`).
* `Decides opened t v`: the token decides the entry, whatever follows (`Decides.verdictFrom_cons`).
* `passes_or_decides`: tokens either pass or have a first one that decides. So an entry is complete
  exactly if its tokens pass and leave no bracket open (`verdictFrom_eq_complete_iff`), and it is
  incomplete or wrong in the ways that `incomplete_cases` and `wrong_cases` list.
-/

namespace Tyro.Entry

/-- The tokens decide nothing, and the brackets `later` are open after them. -/
inductive Passes : List Bracket → List Bracket → List Token → Prop
  | nil (opened : List Bracket) : Passes opened opened []
  | opener {opened later : List Bracket} {bracket : Bracket} {t : Token} {ts : List Token} :
    t.kind = .opener bracket → Passes (bracket :: opened) later ts → Passes opened later (t :: ts)
  | closer {opened later : List Bracket} {bracket : Bracket} {t : Token} {ts : List Token} :
    t.kind = .closer bracket → Passes opened later ts → Passes (bracket :: opened) later (t :: ts)
  | other {opened later : List Bracket} {t : Token} {ts : List Token} :
    (∀ bracket, t.kind ≠ .opener bracket) → (∀ bracket, t.kind ≠ .closer bracket) →
    isLoneQuote t = false → Passes opened later ts → Passes opened later (t :: ts)

/-- The token decides the entry, with these brackets open before it. -/
inductive Decides (opened : List Bracket) (t : Token) : Verdict → Prop
  | quote : isLoneQuote t = true → Decides opened t .incomplete
  | crossed {bracket innermost : Bracket} {outer : List Bracket} : t.kind = .closer bracket →
    opened = innermost :: outer → innermost ≠ bracket →
    Decides opened t (.wrong (.crossed bracket innermost t.span.start))
  | unmatched {bracket : Bracket} : t.kind = .closer bracket → opened = [] →
    Decides opened t (.wrong (.unmatched bracket t.span.start))

variable {opened later : List Bracket} {t : Token} {ts : List Token} {v : Verdict}

/-- Where no token follows, the verdict is decided by whether a bracket is open. -/
theorem verdictFrom_nil (opened : List Bracket) :
    verdictFrom opened [] = if opened.isEmpty then .complete else .incomplete := by
  rw [verdictFrom]

/-- A lone double quote is no bracket. -/
theorem kind_of_isLoneQuote (quote : isLoneQuote t = true) : t.kind = .bad .unrecognized := by
  simp only [isLoneQuote, Bool.and_eq_true, decide_eq_true_eq] at quote
  exact quote.1

/-- Among tokens that pass, no double quote is open. -/
theorem Passes.closed (h : Passes opened later ts) : ∀ t ∈ ts, isLoneQuote t = false := by
  induction h with
  | nil opened => exact List.forall_mem_nil _
  | opener kind _ ih | closer kind _ ih =>
    exact List.forall_mem_cons.2 ⟨by simp [isLoneQuote, kind], ih⟩
  | other _ _ quote _ ih => exact List.forall_mem_cons.2 ⟨quote, ih⟩

/-- **Tokens that pass** hand the entry on with the brackets that are open after them. -/
theorem Passes.verdictFrom_append (h : Passes opened later ts) (us : List Token) :
    verdictFrom opened (ts ++ us) = verdictFrom later us := by
  induction h with
  | nil opened => rfl
  | opener kind _ ih =>
    rw [List.cons_append, verdictFrom.eq_def]
    simp only [kind, ih]
  | closer kind _ ih =>
    rw [List.cons_append, verdictFrom.eq_def]
    simp only [kind, if_true, ih]
  | other opener closer quote _ ih =>
    rw [List.cons_append, verdictFrom_of_not_bracket opener closer, quote, ih]
    rfl

/-- Tokens that pass and tokens that pass behind them pass together. -/
theorem Passes.append {middle : List Bracket} {us : List Token} (h : Passes opened middle ts)
    (next : Passes middle later us) : Passes opened later (ts ++ us) := by
  induction h with
  | nil opened => exact next
  | opener kind _ ih => exact .opener kind (ih next)
  | closer kind _ ih => exact .closer kind (ih next)
  | other opener closer quote _ ih => exact .other opener closer quote (ih next)

/-- The first of tokens that pass do, and then those behind them. -/
theorem Passes.of_append {us : List Token} (h : Passes opened later (ts ++ us)) :
    ∃ middle, Passes opened middle ts ∧ Passes middle later us := by
  induction ts generalizing opened with
  | nil => exact ⟨opened, .nil opened, h⟩
  | cons t ts ih =>
    cases h with
    | opener kind h =>
      obtain ⟨middle, first, next⟩ := ih h
      exact ⟨middle, .opener kind first, next⟩
    | closer kind h =>
      obtain ⟨middle, first, next⟩ := ih h
      exact ⟨middle, .closer kind first, next⟩
    | other opener closer quote h =>
      obtain ⟨middle, first, next⟩ := ih h
      exact ⟨middle, .other opener closer quote first, next⟩

/-- Blank tokens pass, and leave open what was open. -/
theorem passes_iff_of_blank (blanks : ∀ t ∈ ts, t.kind = .blank) :
    Passes opened later ts ↔ later = opened := by
  induction ts with
  | nil =>
    constructor
    · rintro ⟨⟩
      rfl
    · rintro rfl
      exact .nil _
  | cons t ts ih =>
    have blank := blanks t List.mem_cons_self
    have rest := ih fun u mem => blanks u (List.mem_cons_of_mem t mem)
    constructor
    · intro h
      cases h with
      | opener kind _ => cases kind.symm.trans blank
      | closer kind _ => cases kind.symm.trans blank
      | other _ _ _ h => exact rest.1 h
    · intro same
      exact .other (by rw [blank]; nofun) (by rw [blank]; nofun) (by simp [isLoneQuote, blank])
        (rest.2 same)

/-- **A token that decides** settles the entry, whatever follows it. -/
theorem Decides.verdictFrom_cons (h : Decides opened t v) (us : List Token) :
    verdictFrom opened (t :: us) = v := by
  cases h with
  | quote quote =>
    have kind := kind_of_isLoneQuote quote
    rw [verdictFrom_of_not_bracket (by rw [kind]; nofun) (by rw [kind]; nofun), if_pos quote]
  | crossed kind innermost differ =>
    rw [verdictFrom.eq_def, innermost]
    simp only [kind, if_neg differ]
  | unmatched kind empty =>
    rw [verdictFrom.eq_def, empty]
    simp only [kind]

/-- Tokens either pass or have a first one that decides. -/
theorem passes_or_decides (opened : List Bracket) (ts : List Token) :
    (∃ later, Passes opened later ts) ∨
      ∃ before t after later v, ts = before ++ t :: after ∧ Passes opened later before ∧
        Decides later t v := by
  induction ts generalizing opened with
  | nil => exact .inl ⟨opened, .nil opened⟩
  | cons t ts ih =>
    -- Once the first token has passed, what holds of the others holds of all.
    have first {middle : List Bracket}
        (pass : ∀ {later us}, Passes middle later us → Passes opened later (t :: us)) :
        (∃ later, Passes opened later (t :: ts)) ∨
          ∃ before u after later v, t :: ts = before ++ u :: after ∧
            Passes opened later before ∧ Decides later u v := by
      rcases ih middle with ⟨later, passes⟩ | ⟨before, u, after, later, v, rfl, passes, decides⟩
      · exact .inl ⟨later, pass passes⟩
      · exact .inr ⟨t :: before, u, after, later, v, rfl, pass passes, decides⟩
    cases kind : t.kind with
    | opener bracket => exact first (.opener kind)
    | closer bracket =>
      cases opened with
      | nil => exact .inr ⟨[], t, ts, [], _, rfl, .nil [], .unmatched kind rfl⟩
      | cons innermost outer =>
        by_cases same : innermost = bracket
        · subst same
          exact first (.closer kind)
        · exact .inr ⟨[], t, ts, _, _, rfl, .nil _, .crossed kind rfl same⟩
    | _ =>
      cases quote : isLoneQuote t with
      | true => exact .inr ⟨[], t, ts, opened, _, rfl, .nil opened, .quote quote⟩
      | false => exact first (.other (by rw [kind]; nofun) (by rw [kind]; nofun) quote)

/-- Tokens that pass are judged by the brackets that they leave open. -/
theorem Passes.verdictFrom (h : Passes opened later ts) :
    verdictFrom opened ts = if later.isEmpty then .complete else .incomplete := by
  have whole := h.verdictFrom_append []
  rwa [List.append_nil, verdictFrom_nil] at whole

/-- Where a first token decides, its verdict is that on all. -/
theorem Decides.verdictFrom_append {before : List Token} (decides : Decides later t v)
    (passes : Passes opened later before) (us : List Token) :
    verdictFrom opened (before ++ t :: us) = v := by
  rw [passes.verdictFrom_append, decides.verdictFrom_cons]

/-- A complete entry is one whose tokens pass and leave no bracket open. -/
theorem verdictFrom_eq_complete_iff : verdictFrom opened ts = .complete ↔ Passes opened [] ts := by
  constructor
  · intro h
    rcases passes_or_decides opened ts with
      ⟨later, passes⟩ | ⟨before, t, after, later, v, rfl, passes, decides⟩
    · rw [passes.verdictFrom] at h
      split at h
      · next empty =>
        rw [List.isEmpty_iff.1 empty] at passes
        exact passes
      · cases h
    · rw [decides.verdictFrom_append passes] at h
      subst h
      cases decides
  · exact fun passes => passes.verdictFrom

/-- An incomplete entry leaves a bracket open, or has a double quote that is still open. -/
theorem incomplete_cases (h : verdictFrom opened ts = .incomplete) :
    (∃ bracket later, Passes opened (bracket :: later) ts) ∨
      ∃ before t after later, ts = before ++ t :: after ∧ Passes opened later before ∧
        isLoneQuote t = true := by
  rcases passes_or_decides opened ts with
    ⟨later, passes⟩ | ⟨before, t, after, later, v, rfl, passes, decides⟩
  · rw [passes.verdictFrom] at h
    cases later with
    | nil => cases h
    | cons bracket later => exact .inl ⟨bracket, later, passes⟩
  · rw [decides.verdictFrom_append passes] at h
    subst h
    cases decides with
    | quote quote => exact .inr ⟨before, t, after, later, rfl, passes, quote⟩

/-- A wrong entry has a first closing bracket that makes it wrong. -/
theorem wrong_cases {fault : BracketFault} (h : verdictFrom opened ts = .wrong fault) :
    ∃ before t after later bracket, ts = before ++ t :: after ∧ Passes opened later before ∧
      Decides later t (.wrong fault) ∧ t.kind = .closer bracket := by
  rcases passes_or_decides opened ts with
    ⟨later, passes⟩ | ⟨before, t, after, later, v, rfl, passes, decides⟩
  · rw [passes.verdictFrom] at h
    split at h <;> cases h
  · rw [decides.verdictFrom_append passes] at h
    subst h
    cases decides with
    | crossed kind innermost differ =>
      exact ⟨before, t, after, later, _, rfl, passes, .crossed kind innermost differ, kind⟩
    | unmatched kind empty =>
      exact ⟨before, t, after, later, _, rfl, passes, .unmatched kind empty, kind⟩

end Tyro.Entry
