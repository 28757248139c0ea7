/-!
# Sorted name lists

Lists of names are shown in code point order, which is also the order of their UTF-8 bytes, and
without repetition. `sortedNames` puts any list of names into that form (`pairwise_sortedNames`);
`mem_sortedNames` says that it adds and loses nothing.
-/

namespace Tyro.Text

/-- Puts a name into its place in an ordered list; a name that is there already is not repeated. -/
def insertName (name : String) : List String → List String
  | [] => [name]
  | first :: rest =>
    if name < first then name :: first :: rest
    else if name = first then first :: rest
    else first :: insertName name rest

/-- The names in code point order, each once. -/
def sortedNames : List String → List String
  | [] => []
  | name :: names => insertName name (sortedNames names)

theorem mem_insertName {x name : String} {names : List String} :
    x ∈ insertName name names ↔ x = name ∨ x ∈ names := by
  induction names with
  | nil => simp [insertName]
  | cons first rest ih =>
    unfold insertName
    split
    · simp
    · split
      · next h => subst h; simp
      · simp only [List.mem_cons, ih]
        exact or_left_comm

/-- Sorting a list of names neither adds nor loses one. -/
theorem mem_sortedNames {x : String} {names : List String} :
    x ∈ sortedNames names ↔ x ∈ names := by
  induction names with
  | nil => simp [sortedNames]
  | cons name names ih => simp [sortedNames, mem_insertName, ih]

/-- A name in its place leaves a list in order, without repetition. -/
theorem pairwise_insertName (name : String) {names : List String}
    (sorted : names.Pairwise (· < ·)) : (insertName name names).Pairwise (· < ·) := by
  induction names with
  | nil => exact List.pairwise_singleton _ name
  | cons first rest ih =>
    obtain ⟨above, others⟩ := List.pairwise_cons.1 sorted
    unfold insertName
    split
    · next below =>
      refine List.pairwise_cons.2 ⟨fun x mem => ?_, sorted⟩
      rcases List.mem_cons.1 mem with rfl | mem
      · exact below
      · exact String.lt_trans below (above x mem)
    · next notBelow =>
      split
      · exact sorted
      · next other =>
        refine List.pairwise_cons.2 ⟨fun x mem => ?_, ih others⟩
        rcases mem_insertName.1 mem with rfl | mem
        · exact String.not_le.1 fun le => other (String.le_antisymm le (String.not_lt.1 notBelow))
        · exact above x mem

/-- Sorted names are in order, and no name is repeated. -/
theorem pairwise_sortedNames (names : List String) : (sortedNames names).Pairwise (· < ·) := by
  induction names with
  | nil => exact .nil
  | cons name names ih => exact pairwise_insertName name ih

end Tyro.Text
