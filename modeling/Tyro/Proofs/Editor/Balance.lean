import Tyro.Proofs.Editor.Passage
import Tyro.Proofs.Sexp.Stack

/-!
# The verdict and what is read

The verdict on an entry keeps a stack of brackets and stops at the first that is at fault. The
reader goes on behind it and puts errors into what it reads, where an outer error can take an inner
one with it. Both say the same of an entry.

* `Sexp.Unbalanced`: some error in the S-expression, at whatever depth, is one of brackets.
* `Passes.balanced`: while tokens pass, the reader has the same brackets open, and nothing that it
  has made is unbalanced.
* `unbalanced_of_wrong`: a closing bracket that makes the entry wrong makes an unbalanced
  S-expression. Inside a group it stays there until the group is finished, and a group that ends
  badly or never is an error of brackets itself (`unbalanced_of_mem_items`).
-/

namespace Tyro

/-- The fault is one of brackets: one stays open, closes nothing or closes the wrong one. -/
def ReadFault.IsOfBrackets : ReadFault → Prop
  | .unclosed | .unopened | .mismatched => True
  | .nothing | .badToken => False

namespace Sexp

/-- Some bracket is at fault in the S-expression, at whatever depth. -/
def Unbalanced (sexp : Sexp) : Prop :=
  ∃ e, sexp.Contains (.error e) ∧ e.fault.IsOfBrackets

/-- An error is unbalanced by its own fault. -/
theorem unbalanced_error_iff {e : ReadError} :
    (Sexp.error e).Unbalanced ↔ e.fault.IsOfBrackets := by
  constructor
  · rintro ⟨inner, inside, fault⟩
    cases contains_error_iff.1 inside
    exact fault
  · exact fun fault => ⟨e, .self _, fault⟩

/-- A list is unbalanced by one of its items. -/
theorem unbalanced_list_iff {items : List Sexp} :
    (Sexp.list items).Unbalanced ↔ ∃ item ∈ items, item.Unbalanced := by
  constructor
  · rintro ⟨e, _ | ⟨mem, inside⟩, fault⟩
    exact ⟨_, mem, e, inside, fault⟩
  · rintro ⟨item, mem, e, inside, fault⟩
    exact ⟨e, .item mem inside, fault⟩

end Sexp

namespace Reader

variable {groups : List Group} {t : Token} {ts : List Token} {sexp : Sexp}

/-- No item of an open group is unbalanced. -/
def Balanced (groups : List Group) : Prop := ∀ g ∈ groups, ∀ item ∈ g.items, ¬ item.Unbalanced

/-- A token that stands for an S-expression brings no fault of brackets. -/
theorem StandsFor.balanced (stands : StandsFor t sexp) : ¬ sexp.Unbalanced := by
  rintro ⟨e, inside, fault⟩
  cases stands with
  | tooLarge | bad =>
    cases Sexp.contains_error_iff.1 inside
    exact fault
  | _ => cases inside

/-- What is handed on without a fault of brackets leaves the groups without one, and comes out
without one. -/
theorem Balanced.deliver (balanced : Balanced groups) (sound : ¬ sexp.Unbalanced)
    (tokens : List Token) :
    Balanced (deliver sexp tokens groups).1 ∧
      ∀ d ∈ (Reader.deliver sexp tokens groups).2, ¬ d.sexp.Unbalanced := by
  cases groups with
  | nil =>
    refine ⟨balanced, ?_⟩
    rintro d ⟨⟩
    exact sound
  | cons g outer =>
    obtain ⟨first, others⟩ := List.forall_mem_cons.1 balanced
    exact ⟨List.forall_mem_cons.2 ⟨List.forall_mem_cons.2 ⟨sound, first⟩, others⟩, nofun⟩

/-- A blank token leaves the groups without a fault of brackets. -/
theorem Balanced.blank (balanced : Balanced groups) (blank : t.kind = .blank) :
    Balanced (step groups t).1 ∧ (step groups t).2 = none := by
  unfold step
  rw [blank]
  cases groups with
  | nil => exact ⟨balanced, rfl⟩
  | cons g outer =>
    obtain ⟨first, others⟩ := List.forall_mem_cons.1 balanced
    exact ⟨List.forall_mem_cons.2 ⟨first, others⟩, rfl⟩

/-- An opening bracket leaves the groups without a fault of brackets. -/
theorem Balanced.opener (balanced : Balanced groups) {bracket : Bracket}
    (opens : t.kind = .opener bracket) :
    Balanced (step groups t).1 ∧ (step groups t).2 = none := by
  unfold step
  rw [opens]
  exact ⟨List.forall_mem_cons.2 ⟨List.forall_mem_nil _, balanced⟩, rfl⟩

/-- A closing bracket of the same kind ends a group without a fault of brackets. -/
theorem Balanced.closer {g : Group} {outer : List Group} (balanced : Balanced (g :: outer))
    (closes : t.kind = .closer g.bracket) :
    Balanced (step (g :: outer) t).1 ∧
      ∀ d ∈ (step (g :: outer) t).2, ¬ d.sexp.Unbalanced := by
  obtain ⟨first, others⟩ := List.forall_mem_cons.1 balanced
  have list : ¬ (g.close g.bracket t).Unbalanced := by
    rw [Group.close, if_pos rfl, Sexp.unbalanced_list_iff]
    rintro ⟨item, mem, bad⟩
    exact first item (List.mem_reverse.1 mem) bad
  unfold step
  rw [closes]
  exact Balanced.deliver others list _

/-! ## Faults stay -/

/-- What is handed on with a fault of brackets stays: it comes out, or is an item of a group. -/
theorem unbalanced_deliver (bad : sexp.Unbalanced) (tokens : List Token) (groups : List Group) :
    (∃ g ∈ (deliver sexp tokens groups).1, ∃ item ∈ g.items, item.Unbalanced) ∨
      ∃ d ∈ (deliver sexp tokens groups).2, d.sexp.Unbalanced := by
  cases groups with
  | nil => exact .inr ⟨_, rfl, bad⟩
  | cons g outer => exact .inl ⟨_, List.mem_cons_self, sexp, List.mem_cons_self, bad⟩

/-- Handing something on loses no item of a group. -/
theorem exists_mem_deliver {g : Group} {item : Sexp} (mem : g ∈ groups) (inside : item ∈ g.items)
    (sexp : Sexp) (tokens : List Token) :
    ∃ g' ∈ (deliver sexp tokens groups).1, item ∈ g'.items := by
  cases groups with
  | nil => cases mem
  | cons first outer =>
    rcases List.mem_cons.1 mem with rfl | later
    · exact ⟨_, List.mem_cons_self, List.mem_cons_of_mem _ inside⟩
    · exact ⟨g, List.mem_cons_of_mem _ later, inside⟩

/-- A group with an unbalanced item is unbalanced, whichever bracket closes it. -/
theorem Group.unbalanced_close {g : Group} {item : Sexp} (inside : item ∈ g.items)
    (bad : item.Unbalanced) (bracket : Bracket) (t : Token) : (g.close bracket t).Unbalanced := by
  unfold close
  split
  · exact Sexp.unbalanced_list_iff.2 ⟨item, List.mem_reverse.2 inside, bad⟩
  · exact Sexp.unbalanced_error_iff.2 trivial

/-- One token keeps an unbalanced item in a group, or brings out something unbalanced. -/
theorem unbalanced_step {g : Group} {item : Sexp} (mem : g ∈ groups) (inside : item ∈ g.items)
    (bad : item.Unbalanced) (t : Token) :
    (∃ g ∈ (step groups t).1, ∃ item ∈ g.items, item.Unbalanced) ∨
      ∃ d ∈ (step groups t).2, d.sexp.Unbalanced := by
  have kept (sexp : Sexp) (tokens : List Token) :
      ∃ g ∈ (deliver sexp tokens groups).1, ∃ item ∈ g.items, item.Unbalanced := by
    obtain ⟨g', mem', inside'⟩ := exists_mem_deliver mem inside sexp tokens
    exact ⟨g', mem', item, inside', bad⟩
  rcases standsFor_cases t with ⟨sexp, stands⟩ | blank | ⟨bracket, opens⟩ | ⟨bracket, closes⟩
  · rw [stands.step]
    exact .inl (kept sexp [t])
  · unfold step
    rw [blank]
    cases groups with
    | nil => cases mem
    | cons first outer =>
      rcases List.mem_cons.1 mem with rfl | later
      · exact .inl ⟨_, List.mem_cons_self, item, inside, bad⟩
      · exact .inl ⟨g, List.mem_cons_of_mem _ later, item, inside, bad⟩
  · unfold step
    rw [opens]
    exact .inl ⟨g, List.mem_cons_of_mem _ mem, item, inside, bad⟩
  · unfold step
    rw [closes]
    cases groups with
    | nil => cases mem
    | cons first outer =>
      rcases List.mem_cons.1 mem with rfl | later
      · exact unbalanced_deliver (Group.unbalanced_close inside bad bracket t) _ outer
      · obtain ⟨g', mem', inside'⟩ :=
          exists_mem_deliver later inside (first.close bracket t) (t :: first.tokens)
        exact .inl ⟨g', mem', item, inside', bad⟩

/-- Groups that are open at the end are unbalanced. -/
theorem unbalanced_finish (nonempty : groups ≠ []) : ∃ d ∈ finish groups, d.sexp.Unbalanced := by
  cases groups with
  | nil => exact absurd rfl nonempty
  | cons g outer => exact ⟨_, rfl, Sexp.unbalanced_error_iff.2 trivial⟩

/-- **Faults stay.** An unbalanced item of an open group makes something unbalanced of all that is
read, whatever follows. -/
theorem unbalanced_of_mem_items {g : Group} {item : Sexp} (mem : g ∈ groups)
    (inside : item ∈ g.items) (bad : item.Unbalanced) (ts : List Token) :
    ∃ d ∈ run groups ts, d.sexp.Unbalanced := by
  induction ts generalizing groups g item with
  | nil =>
    obtain ⟨d, out, bad⟩ := unbalanced_finish (List.ne_nil_of_mem mem)
    exact ⟨d, Option.mem_toList.2 out, bad⟩
  | cons t ts ih =>
    rcases unbalanced_step mem inside bad t with ⟨g', mem', item', inside', bad'⟩ | ⟨d, out, bad'⟩
    · obtain ⟨d, later, bad''⟩ := ih mem' inside' bad'
      exact ⟨d, List.mem_append_right _ later, bad''⟩
    · exact ⟨d, List.mem_append_left _ (Option.mem_toList.2 out), bad'⟩

/-- What a token makes unbalanced leaves something unbalanced in all that is read. -/
theorem unbalanced_run_cons
    (h : (∃ g ∈ (step groups t).1, ∃ item ∈ g.items, item.Unbalanced) ∨
      ∃ d ∈ (step groups t).2, d.sexp.Unbalanced) (ts : List Token) :
    ∃ d ∈ run groups (t :: ts), d.sexp.Unbalanced := by
  rcases h with ⟨g, mem, item, inside, bad⟩ | ⟨d, out, bad⟩
  · obtain ⟨d, later, bad'⟩ := unbalanced_of_mem_items mem inside bad ts
    exact ⟨d, List.mem_append_right _ later, bad'⟩
  · exact ⟨d, List.mem_append_left _ (Option.mem_toList.2 out), bad⟩

end Reader

namespace Entry

open Reader

variable {groups : List Group} {opened later : List Bracket} {t : Token} {ts : List Token}

/-- **Tokens that pass** leave the reader with the same brackets open, and nothing that it has made
of them is unbalanced. -/
theorem Passes.balanced (h : Passes opened later ts) (same : bracketsOf groups = opened)
    (balanced : Balanced groups) :
    bracketsOf (feed groups ts).1 = later ∧ Balanced (feed groups ts).1 ∧
      ∀ d ∈ (feed groups ts).2, ¬ d.sexp.Unbalanced := by
  -- What one token brings out comes before what the others bring out.
  have cons {groups : List Group} {t : Token} {ts : List Token} {later : List Bracket}
      (now : ∀ d ∈ (step groups t).2, ¬ d.sexp.Unbalanced)
      (rest : bracketsOf (feed (step groups t).1 ts).1 = later ∧
        Balanced (feed (step groups t).1 ts).1 ∧
        ∀ d ∈ (feed (step groups t).1 ts).2, ¬ d.sexp.Unbalanced) :
      bracketsOf (feed groups (t :: ts)).1 = later ∧ Balanced (feed groups (t :: ts)).1 ∧
        ∀ d ∈ (feed groups (t :: ts)).2, ¬ d.sexp.Unbalanced :=
    ⟨rest.1, rest.2.1, List.forall_mem_append.2
      ⟨fun d out => now d (Option.mem_toList.1 out), rest.2.2⟩⟩
  induction h generalizing groups with
  | nil opened => exact ⟨same, balanced, List.forall_mem_nil _⟩
  | @opener opened later bracket t ts kind _ ih =>
    obtain ⟨balanced', nothing⟩ := balanced.opener kind
    refine cons (by rw [nothing]; nofun) (ih ?_ balanced')
    simp only [step, kind]
    exact congrArg (bracket :: ·) same
  | @closer opened later bracket t ts kind _ ih =>
    cases groups with
    | nil => cases same
    | cons g outer =>
      obtain ⟨rfl, rfl⟩ := List.cons.inj same
      obtain ⟨balanced', sound⟩ := balanced.closer kind
      refine cons sound (ih ?_ balanced')
      simp only [step, kind]
      exact bracketsOf_deliver _ _ _
  | @other opened later t ts opener closer quote _ ih =>
    rcases standsFor_cases t with ⟨sexp, stands⟩ | blank | ⟨bracket, opens⟩ | ⟨bracket, closes⟩
    · obtain ⟨balanced', sound⟩ := balanced.deliver stands.balanced [t]
      rw [← stands.step] at balanced' sound
      refine cons sound (ih ?_ balanced')
      rw [stands.step, bracketsOf_deliver, same]
    · obtain ⟨balanced', nothing⟩ := balanced.blank blank
      refine cons (by rw [nothing]; nofun) (ih ?_ balanced')
      rw [← same]
      simp only [step, blank]
      cases groups <;> rfl
    · exact absurd opens (opener bracket)
    · exact absurd closes (closer bracket)

/-- Where tokens pass from the beginning, the reader has nothing unbalanced. -/
theorem Passes.balanced_of_empty (h : Passes [] later ts) :
    bracketsOf (feed [] ts).1 = later ∧ ∀ d ∈ (feed [] ts).2, ¬ d.sexp.Unbalanced := by
  have start : Balanced [] := List.forall_mem_nil _
  obtain ⟨brackets, -, sound⟩ := h.balanced rfl start
  exact ⟨brackets, sound⟩

/-- **A closing bracket that makes the entry wrong** makes something unbalanced. -/
theorem Decides.unbalanced {fault : BracketFault} (h : Decides opened t (.wrong fault))
    (same : bracketsOf groups = opened) (ts : List Token) :
    ∃ d ∈ run groups (t :: ts), d.sexp.Unbalanced := by
  refine unbalanced_run_cons ?_ ts
  cases h with
  | crossed kind innermost differ =>
    subst same
    cases groups with
    | nil => cases innermost
    | cons g outer =>
      obtain ⟨rfl, -⟩ := List.cons.inj innermost
      simp only [step, kind]
      refine unbalanced_deliver ?_ _ outer
      rw [Group.close, if_neg differ]
      exact Sexp.unbalanced_error_iff.2 trivial
  | unmatched kind empty =>
    rw [empty, bracketsOf, List.map_eq_nil_iff] at same
    subst same
    simp only [step, kind]
    exact .inr ⟨_, rfl, Sexp.unbalanced_error_iff.2 trivial⟩

/-- The tokens of a wrong entry are read as something unbalanced. -/
theorem unbalanced_of_wrong {fault : BracketFault} (h : verdictFrom [] ts = .wrong fault) :
    ∃ d ∈ run [] ts, d.sexp.Unbalanced := by
  obtain ⟨before, t, after, later, bracket, rfl, passes, decides, -⟩ := wrong_cases h
  obtain ⟨brackets, -⟩ := passes.balanced_of_empty
  obtain ⟨d, mem, bad⟩ := decides.unbalanced brackets after
  refine ⟨d, ?_, bad⟩
  rw [run_append]
  exact List.mem_append_right _ mem

/-- Brackets that stay open make one error at the end, with nothing unbalanced before it. -/
theorem Passes.unclosed {bracket : Bracket} (h : Passes [] (bracket :: later) ts) :
    ∃ before last tokens, run [] ts = before ++ [last] ∧ last.sexp = .error ⟨.unclosed, tokens⟩ ∧
      ∀ d ∈ before, ¬ d.sexp.Unbalanced := by
  obtain ⟨brackets, sound⟩ := h.balanced_of_empty
  cases left : (feed [] ts).1 with
  | nil =>
    rw [left] at brackets
    cases brackets
  | cons g outer =>
    refine ⟨(feed [] ts).2, ⟨.error ⟨.unclosed, ((g :: outer).flatMap (·.tokens)).reverse⟩,
      ((g :: outer).flatMap (·.tokens)).reverse⟩, _, ?_, rfl, sound⟩
    rw [run_eq_feed, left]
    rfl

/-- **The verdict is what the reader says.** An entry is complete exactly if no double quote is open
in it and nothing that it is read as has a fault of brackets, at whatever depth. And where an entry
is incomplete without an open double quote, the last S-expression that is read is an unclosed group,
and no other one has a fault of brackets. -/
theorem verdict_as_read (source : String) :
    (verdict source = .complete ↔
      (∀ t ∈ Token.scan source, isLoneQuote t = false) ∧
        ∀ d ∈ Sexp.ofText source, ¬ d.sexp.Unbalanced) ∧
      (verdict source = .incomplete → (∀ t ∈ Token.scan source, isLoneQuote t = false) →
        ∃ before last tokens, Sexp.ofText source = before ++ [last] ∧
          last.sexp = .error ⟨.unclosed, tokens⟩ ∧ ∀ d ∈ before, ¬ d.sexp.Unbalanced) := by
  have incomplete (h : verdict source = .incomplete)
      (closed : ∀ t ∈ Token.scan source, isLoneQuote t = false) :
      ∃ before last tokens, run [] (Token.scan source) = before ++ [last] ∧
        last.sexp = .error ⟨.unclosed, tokens⟩ ∧ ∀ d ∈ before, ¬ d.sexp.Unbalanced := by
    rcases incomplete_cases h with
      ⟨bracket, later, passes⟩ | ⟨before, t, after, later, split, -, quote⟩
    · exact passes.unclosed
    · rw [closed t (split ▸ List.mem_append_right _ List.mem_cons_self)] at quote
      cases quote
  refine ⟨⟨fun h => ?_, fun ⟨closed, sound⟩ => ?_⟩, fun h closed => ?_⟩
  · have passes := verdictFrom_eq_complete_iff.1 h
    obtain ⟨brackets, sound⟩ := passes.balanced_of_empty
    refine ⟨passes.closed, ?_⟩
    unfold Sexp.ofText Sexp.readAll
    rw [List.forall_mem_map, run_eq_feed, List.map_eq_nil_iff.1 brackets]
    simpa [finish] using sound
  · unfold Sexp.ofText Sexp.readAll at sound
    rw [List.forall_mem_map] at sound
    cases judged : verdict source with
    | complete => rfl
    | incomplete =>
      obtain ⟨before, last, tokens, read, unclosed, -⟩ := incomplete judged closed
      refine absurd (sound last (by simp [read])) (not_not_intro ?_)
      rw [unclosed]
      exact Sexp.unbalanced_error_iff.2 trivial
    | wrong fault =>
      obtain ⟨d, mem, bad⟩ := unbalanced_of_wrong judged
      exact absurd bad (sound d mem)
  · obtain ⟨before, last, tokens, read, unclosed, sound⟩ := incomplete h closed
    refine ⟨before.map fun d => ⟨d.sexp, d.span⟩, ⟨last.sexp, last.span⟩, tokens, ?_, unclosed, ?_⟩
    · unfold Sexp.ofText Sexp.readAll
      rw [read, List.map_append, List.map_singleton]
    · exact List.forall_mem_map.2 sound

/-- A comment hides the bracket that would have closed the second group. -/
theorem verdict_as_read_of_open_group :
    verdict "(a [b #x]) (c \"d\" ; e)" = .incomplete ∧
      (∀ t ∈ Token.scan "(a [b #x]) (c \"d\" ; e)", isLoneQuote t = false) ∧
      ∃ before last tokens, Sexp.ofText "(a [b #x]) (c \"d\" ; e)" = before ++ [last] ∧
        last.sexp = .error ⟨.unclosed, tokens⟩ ∧ ∀ d ∈ before, ¬ d.sexp.Unbalanced := by
  have judged : verdict "(a [b #x]) (c \"d\" ; e)" = .incomplete := by decide +kernel
  have closed : ∀ t ∈ Token.scan "(a [b #x]) (c \"d\" ; e)", isLoneQuote t = false := by
    decide +kernel
  exact ⟨judged, closed, (verdict_as_read _).2 judged closed⟩

end Entry

end Tyro
