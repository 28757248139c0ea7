/-!
# Names with a meaning

Most words are free to be names of variables. Keywords begin the forms of the language; templates, a
few dots in a row, stand for code that is still to be written. Neither can be bound. A structure
definition derives names of its own from the structure's name: the constructor's, one accessor's per
field and the predicate's.
-/

namespace Tyro

/-- The words that begin forms. -/
inductive Keyword where
  | define
  | defineStruct
  | ifWord
  | cond
  | elseWord
  | and
  | or
  | checkExpect
  | checkWithin
  | checkError
  deriving DecidableEq, Repr

namespace Keyword

/-- The keyword as it is written. -/
def text : Keyword → String
  | .define => "define"
  | .defineStruct => "define-struct"
  | .ifWord => "if"
  | .cond => "cond"
  | .elseWord => "else"
  | .and => "and"
  | .or => "or"
  | .checkExpect => "check-expect"
  | .checkWithin => "check-within"
  | .checkError => "check-error"

/-- All keywords. -/
def all : List Keyword :=
  [.define, .defineStruct, .ifWord, .cond, .elseWord, .and, .or, .checkExpect, .checkWithin,
    .checkError]

/-- The keyword that a word is. -/
def ofText? (word : String) : Option Keyword := all.find? fun k => k.text = word

theorem ofText?_text (k : Keyword) : ofText? k.text = some k := by cases k <;> decide

theorem text_of_ofText? {word : String} {k : Keyword} (h : ofText? word = some k) :
    k.text = word := by simpa using List.find?_some h

/-- Whether the keyword begins a test. -/
def isCheck : Keyword → Bool
  | .checkExpect | .checkWithin | .checkError => true
  | _ => false

end Keyword

/-- The words that stand for unfinished code: three to six dots. -/
def templates : List String := ["...", "....", ".....", "......"]

/-- What a word means to the parser. -/
inductive Word where
  | template
  | keyword (keyword : Keyword)
  | free
  deriving DecidableEq, Repr

namespace Word

/-- The meaning of a word. -/
def of (word : String) : Word :=
  if word ∈ templates then .template
  else
    match Keyword.ofText? word with
    | some k => .keyword k
    | none => .free

/-- Whether the word stands for unfinished code. -/
def isTemplate (word : String) : Bool := of word = .template

/-- Whether the word begins a test. -/
def isCheck (word : String) : Bool :=
  match of word with
  | .keyword k => k.isCheck
  | _ => false

/-- Whether the word cannot be bound. -/
def isReserved (word : String) : Bool := of word ≠ .free

/-- A keyword's text means that keyword. -/
theorem of_text (k : Keyword) : of k.text = .keyword k := by cases k <;> decide

theorem isReserved_iff {word : String} :
    isReserved word = true ↔ word ∈ templates ∨ ∃ k : Keyword, k.text = word := by
  unfold isReserved of
  by_cases template : word ∈ templates
  · simp [template]
  · simp only [template, if_false, false_or]
    cases found : Keyword.ofText? word with
    | some k => simpa using ⟨k, Keyword.text_of_ofText? found⟩
    | none =>
      simp only [ne_eq, not_true_eq_false, decide_false, Bool.false_eq_true, false_iff]
      rintro ⟨k, rfl⟩
      rw [Keyword.ofText?_text] at found
      cases found

end Word

/-! ## Names that structures derive -/

/-- The name of a structure's constructor. -/
def constructorName (struct : String) : String := "make-" ++ struct

/-- The name of the accessor of one field. -/
def accessorName (struct field : String) : String := struct ++ "-" ++ field

/-- The name of a structure's predicate. -/
def predicateName (struct : String) : String := struct ++ "?"

/-- All names that a structure definition binds, in the order in which it binds them. -/
def structNames (struct : String) (fields : List String) : List String :=
  constructorName struct :: fields.map (accessorName struct) ++ [predicateName struct]

end Tyro
