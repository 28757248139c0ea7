/-!
# Bindings

Names and what they are bound to, each name once, in the order in which the names came. Binding a
name again replaces what it was bound to. The lemmas give a look-up after each operation.
-/

namespace Tyro

/-- A list of names, each with what it is bound to. -/
structure Bindings (α : Type) where
  entries : List (String × α)

namespace Bindings

variable {α : Type}

/-- No bindings. -/
def empty : Bindings α := ⟨[]⟩

/-- What the first entry of a name binds it to. -/
def find (name : String) : List (String × α) → Option α
  | [] => none
  | (other, x) :: rest => if other = name then some x else find name rest

/-- Changes the entry of a name, or adds one at the end. -/
def put (name : String) (x : α) : List (String × α) → List (String × α)
  | [] => [(name, x)]
  | (other, y) :: rest =>
    if other = name then (other, x) :: rest else (other, y) :: put name x rest

/-- What a name is bound to. -/
def get? (b : Bindings α) (name : String) : Option α := find name b.entries

/-- Binds a name, replacing what it was bound to. -/
def insert (b : Bindings α) (name : String) (x : α) : Bindings α := ⟨put name x b.entries⟩

/-- The names that are bound. -/
def names (b : Bindings α) : List String := b.entries.map Prod.fst

/-- Binds every name of a list, a later entry replacing an earlier one. -/
def insertAll (b : Bindings α) : List (String × α) → Bindings α
  | [] => b
  | (name, x) :: rest => (b.insert name x).insertAll rest

/-- Binds the names of a list and no others. -/
def ofList (entries : List (String × α)) : Bindings α := empty.insertAll entries

/-! ## Looking up -/

theorem find_put (name other : String) (x : α) (entries : List (String × α)) :
    find other (put name x entries) = if name = other then some x else find other entries := by
  induction entries with
  | nil => simp [put, find]
  | cons entry rest ih =>
    obtain ⟨first, y⟩ := entry
    by_cases h : first = name
    · subst h
      simp only [put, if_true, find]
      split <;> rfl
    · simp only [put, if_neg h, find, ih]
      grind

@[simp] theorem get?_empty (name : String) : (empty : Bindings α).get? name = none := rfl

/-- A name that was bound is bound to that; all other names keep what they had. -/
theorem get?_insert (b : Bindings α) (name other : String) (x : α) :
    (b.insert name x).get? other = if name = other then some x else b.get? other :=
  find_put name other x b.entries

theorem find_isSome_iff {name : String} {entries : List (String × α)} :
    (find name entries).isSome = true ↔ name ∈ entries.map Prod.fst := by
  induction entries with
  | nil => simp [find]
  | cons entry rest ih =>
    obtain ⟨first, y⟩ := entry
    by_cases h : first = name
    · simp [find, h]
    · have h' : name ≠ first := fun e => h e.symm
      simp [find, h, h', ih]

/-- The names are those that have a look-up. -/
theorem get?_isSome_iff {b : Bindings α} {name : String} :
    (b.get? name).isSome = true ↔ name ∈ b.names :=
  find_isSome_iff

end Bindings

end Tyro
