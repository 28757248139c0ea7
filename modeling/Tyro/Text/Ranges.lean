/-!
# Ranges of characters

A property of characters is a list of ranges of code points, both ends included, in ascending order
and apart from each other. A look-up stops at the first range that begins after the code point;
`has_iff` says that it finds what is in a range.
-/

namespace Tyro.Text

/-- Ranges of code points, each with its first and its last. -/
abbrev Ranges := List (Nat × Nat)

namespace Ranges

/-- Whether the ranges ascend from a bound on and are apart. -/
def ascendFrom : Nat → Ranges → Bool
  | _, [] => true
  | bound, (first, last) :: rest =>
    bound ≤ first && first ≤ last && ascendFrom (last + 1) rest

/-- Whether a code point is in one of the ranges. -/
def has : Ranges → Nat → Bool
  | [], _ => false
  | (first, last) :: rest, n => if n < first then false else n ≤ last || has rest n

theorem not_mem_of_lt {rs : Ranges} {bound n : Nat} (h : ascendFrom bound rs = true)
    (hn : n < bound) : ∀ r ∈ rs, ¬ (r.1 ≤ n ∧ n ≤ r.2) := by
  induction rs generalizing bound with
  | nil => simp
  | cons r rest ih =>
    simp only [ascendFrom, Bool.and_eq_true, decide_eq_true_eq] at h
    intro s hs
    rcases List.mem_cons.mp hs with rfl | hs
    · omega
    · exact ih h.2 (by omega) s hs

/-- The look-up in ascending ranges finds what is in a range. -/
theorem has_iff {rs : Ranges} {bound : Nat} (h : ascendFrom bound rs = true) (n : Nat) :
    rs.has n = true ↔ ∃ r ∈ rs, r.1 ≤ n ∧ n ≤ r.2 := by
  induction rs generalizing bound with
  | nil => simp [has]
  | cons r rest ih =>
    have hr := h
    simp only [ascendFrom, Bool.and_eq_true, decide_eq_true_eq] at hr
    unfold has
    split
    · next hlt =>
      have after : ascendFrom r.1 (r :: rest) = true := by simp [ascendFrom, hr]
      constructor
      · intro hf
        exact absurd hf (by simp)
      · rintro ⟨s, hs, hin⟩
        exact absurd hin (not_mem_of_lt after hlt s hs)
    · next hge =>
      rw [Bool.or_eq_true, decide_eq_true_eq, ih hr.2]
      constructor
      · rintro (hle | ⟨s, hs, hin⟩)
        · exact ⟨r, List.mem_cons_self, by omega, hle⟩
        · exact ⟨s, List.mem_cons_of_mem _ hs, hin⟩
      · rintro ⟨s, hs, hin⟩
        rcases List.mem_cons.mp hs with rfl | hs
        · exact Or.inl hin.2
        · exact Or.inr ⟨s, hs, hin⟩

end Ranges

end Tyro.Text
