import Tyro.Proofs.Number.RoundTrip
import Tyro.Proofs.Sexp.Invariant

/-!
# What the reader can make of a text

Not every S-expression has a text that is read as it: a string with a double quote has none, nor has
an infinite number or a name with a space. `Sexp.Legible` is the invariant of those that the reader
makes out of a scanned text (`Reader.legible_invariant`), so that everything that a text is read as
has it (`Sexp.legible_ofText`).
-/

namespace Tyro

open Token

/-- An S-expression all of whose atoms have a text that is one token of theirs. -/
inductive Sexp.Legible : Sexp → Prop
  | string {content : String} (unquoted : '\x22' ∉ content.toList) : Legible (.string content)
  | number {value : Float} (finite : Number.IsFinite value) : Legible (.number value)
  | boolean (value : Bool) : Legible (.boolean value)
  | name {word : String} (token : IsToken .name word.toList) : Legible (.name word)
  | list {items : List Sexp} (all : ∀ item ∈ items, Legible item) : Legible (.list items)
  | error (error : ReadError) : Legible (.error error)

namespace Reader

/-- The atom of a scanned token is legible. -/
theorem legible_atom {t : Token} (token : IsToken t.kind t.text.toList)
    (self : t.kind = .number ∨ t.kind = .string ∨ t.kind = .name ∨ t.kind = .boolean) :
    (atom t).Legible := by
  rcases self with kind | kind | kind | kind
  · simp only [atom, kind]
    cases read : Number.read? t.text.toList with
    | some value => exact .number (Number.isFinite_of_read? read)
    | none => exact .error _
  · rw [kind] at token
    obtain ⟨content, text, unquoted⟩ := token.string_inv
    simp only [atom, kind, text, List.tail_cons, List.dropLast_concat]
    exact .string (by rwa [String.toList_ofList])
  · simp only [atom, kind]
    exact .name (kind ▸ token)
  · simp only [atom, kind]
    exact .boolean _

/-- A closed group is legible if its items are. -/
theorem Group.legible_close {g : Group} (items : ∀ item ∈ g.items, item.Legible)
    (bracket : Bracket) (t : Token) : (g.close bracket t).Legible := by
  unfold close
  split
  · exact .list fun item mem => items item (List.mem_reverse.1 mem)
  · exact .error _

/-- Legible items and S-expressions are what the reader makes of scanned tokens. -/
theorem legible_invariant :
    Invariant (fun t => IsToken t.kind t.text.toList) (fun g => ∀ item ∈ g.items, item.Legible)
      (fun sexp _ => sexp.Legible) where
  atom := legible_atom
  single _ _ _ := .error _
  opener _ _ := List.forall_mem_nil _
  blank _ items := items
  item legible items := List.forall_mem_cons.2 ⟨legible, items⟩
  closer _ _ items := Group.legible_close items _ _
  unclosed _ _ := .error _

end Reader

/-- Everything that a text is read as is legible. -/
theorem Sexp.legible_ofText {source : String} {d : Sexp.Located} (h : d ∈ Sexp.ofText source) :
    d.sexp.Legible := by
  obtain ⟨datum, mem, rfl⟩ := List.mem_map.1 h
  have tokens : ∀ t ∈ scan source, IsToken t.kind t.text.toList := fun _ => isToken_of_mem_scan
  exact Reader.legible_invariant.run (List.forall_mem_nil _) tokens datum mem

end Tyro
