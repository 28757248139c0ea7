import Tyro.Sexp.Read

/-!
# Invariants of the reader

What holds of tokens can hold of the groups that they open and of all that is read from them.
`Invariant good inside read` says that reading one token keeps it so, with one field for each thing
that a token can do. `Invariant.step` is one token and `Invariant.run` a whole run.
-/

namespace Tyro.Reader

/-- Reading good tokens makes groups that are `inside`, and S-expressions that are `read` with their
tokens, these with the newest first. -/
structure Invariant (good : Token → Prop) (inside : Group → Prop)
    (read : Sexp → List Token → Prop) : Prop where
  /-- A token that stands for itself is an atom. -/
  atom : ∀ {t : Token}, good t →
    t.kind = .number ∨ t.kind = .string ∨ t.kind = .name ∨ t.kind = .boolean → read (atom t) [t]
  /-- A token that is bad or closes nothing is an error by itself. -/
  single : ∀ {t : Token} (fault : ReadFault), good t → t.kind ≠ .blank →
    read (.error ⟨fault, [t]⟩) [t]
  /-- An opening bracket begins a group. -/
  opener : ∀ {t : Token} {bracket : Bracket}, good t → t.kind = .opener bracket →
    inside ⟨bracket, [t], []⟩
  /-- A blank token joins a group. -/
  blank : ∀ {t : Token} {g : Group}, good t → inside g → inside { g with tokens := t :: g.tokens }
  /-- What is read joins a group. -/
  item : ∀ {sexp : Sexp} {tokens : List Token} {g : Group}, read sexp tokens → inside g →
    inside { g with tokens := tokens ++ g.tokens, items := sexp :: g.items }
  /-- A closing bracket ends a group. -/
  closer : ∀ {t : Token} {bracket : Bracket} {g : Group}, good t → t.kind = .closer bracket →
    inside g → read (g.close bracket t) (t :: g.tokens)
  /-- Groups that are open at the end make an error. -/
  unclosed : ∀ {groups : List Group}, groups ≠ [] → (∀ g ∈ groups, inside g) →
    read (.error ⟨.unclosed, (groups.flatMap (·.tokens)).reverse⟩) (groups.flatMap (·.tokens))

namespace Invariant

variable {good : Token → Prop} {inside : Group → Prop} {read : Sexp → List Token → Prop}
  {groups : List Group}

/-- Handing on what is read keeps the invariant. -/
theorem deliver (inv : Invariant good inside read) (all : ∀ g ∈ groups, inside g) {sexp : Sexp}
    {tokens : List Token} (h : read sexp tokens) :
    (∀ g ∈ (deliver sexp tokens groups).1, inside g) ∧
      ∀ d ∈ (deliver sexp tokens groups).2, read d.sexp d.tokens.reverse := by
  cases groups with
  | nil =>
    refine ⟨all, ?_⟩
    rintro d ⟨⟩
    rwa [List.reverse_reverse]
  | cons g outer =>
    obtain ⟨first, others⟩ := List.forall_mem_cons.1 all
    exact ⟨List.forall_mem_cons.2 ⟨inv.item h first, others⟩, nofun⟩

/-- **One token** keeps the invariant. -/
theorem step (inv : Invariant good inside read) (all : ∀ g ∈ groups, inside g) {t : Token}
    (h : good t) :
    (∀ g ∈ (step groups t).1, inside g) ∧
      ∀ d ∈ (step groups t).2, read d.sexp d.tokens.reverse := by
  have self (kind : t.kind = .number ∨ t.kind = .string ∨ t.kind = .name ∨ t.kind = .boolean) :=
    inv.deliver all (inv.atom h kind)
  unfold Reader.step
  cases kind : t.kind with
  | number => exact self (.inl kind)
  | string => exact self (.inr (.inl kind))
  | name => exact self (.inr (.inr (.inl kind)))
  | boolean => exact self (.inr (.inr (.inr kind)))
  | bad fault => exact inv.deliver all (inv.single .badToken h (by rw [kind]; nofun))
  | opener bracket => exact ⟨List.forall_mem_cons.2 ⟨inv.opener h kind, all⟩, nofun⟩
  | blank =>
    cases groups with
    | nil => exact ⟨all, nofun⟩
    | cons g outer =>
      obtain ⟨first, others⟩ := List.forall_mem_cons.1 all
      exact ⟨List.forall_mem_cons.2 ⟨inv.blank h first, others⟩, nofun⟩
  | closer bracket =>
    cases groups with
    | nil =>
      refine ⟨all, ?_⟩
      rintro d ⟨⟩
      exact inv.single .unopened h (by rw [kind]; nofun)
    | cons g outer =>
      obtain ⟨first, others⟩ := List.forall_mem_cons.1 all
      exact inv.deliver others (inv.closer h kind first)

/-- **A run** over good tokens makes only what the invariant allows. -/
theorem run (inv : Invariant good inside read) (all : ∀ g ∈ groups, inside g) {ts : List Token}
    (h : ∀ t ∈ ts, good t) : ∀ d ∈ run groups ts, read d.sexp d.tokens.reverse := by
  induction ts generalizing groups with
  | nil =>
    intro d mem
    rw [Reader.run, Option.mem_toList] at mem
    cases groups with
    | nil => cases mem
    | cons g outer =>
      cases mem
      rw [List.reverse_reverse]
      exact inv.unclosed (List.cons_ne_nil g outer) all
  | cons t ts ih =>
    obtain ⟨now, others⟩ := List.forall_mem_cons.1 h
    obtain ⟨all', delivered⟩ := inv.step all now
    intro d mem
    rcases List.mem_append.1 mem with here | later
    · exact delivered d (Option.mem_toList.1 here)
    · exact ih all' others d later

end Invariant

end Tyro.Reader
