import Tyro.Form.Parse
import Tyro.Store.Basic
import Tyro.Text.Sorted

/-!
# Completion

A name that ends at the cursor can be completed to any known name or keyword that begins with it.
The known names are those of the library and those that the entries so far define.
-/

namespace Tyro.Completion

/-- The candidates to replace the text from `start` up to the cursor. -/
structure Offer where
  start : Nat
  candidates : List String
  deriving DecidableEq, Repr

/-- The names that the definitions of a text bind, in order. -/
def definedNames (source : String) : List String := (Form.ofText source).flatMap Form.boundNames

/-- The names of the library. -/
def libraryNames : List String :=
  let (frame, s) := Store.empty.newLibrary
  s.names frame

/-- Whether a name begins with a text. -/
def beginsWith (name text : String) : Bool := text.toList.isPrefixOf name.toList

/-- The known names and keywords that begin with a text, in order and each once. -/
def candidates (known : List String) (text : String) : List String :=
  Text.sortedNames ((known ++ Keyword.all.map Keyword.text).filter fun name => beginsWith name text)

/-- What is offered for a line with the cursor at a byte offset: nothing unless a name ends there.
-/
def offer (known : List String) (line : String) (cursor : Nat) : Offer :=
  let before := Text.takeBytes cursor line.toList
  match (Token.scanFrom 0 before).getLast? with
  | some t =>
    if t.kind = .name then ⟨t.span.start, candidates known t.text⟩ else ⟨cursor, []⟩
  | none => ⟨cursor, []⟩

end Tyro.Completion
