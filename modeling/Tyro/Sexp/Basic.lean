import Tyro.Number.Text
import Tyro.Text.Blank
import Tyro.Token.Basic

/-!
# S-expressions

What the reader makes of tokens: atoms, lists and, where something could not be read, the error that
stands in its place. All three kinds of bracket make the same list. An error keeps every token that
it concerns, so that the source it came from can be shown again word for word.

Equality of S-expressions is decidable (`Sexp.same`), which tells what a given text is read as.
-/

namespace Tyro

/-- The ways in which reading fails. -/
inductive ReadFault where
  /-- There is nothing left to read. -/
  | nothing
  /-- A group is still open at the end of the text. -/
  | unclosed
  /-- A closing bracket stands where no group is open. -/
  | unopened
  /-- A group is closed by a bracket of another kind. -/
  | mismatched
  /-- A token is bad, or is a number too large for a double. -/
  | badToken
  deriving DecidableEq, Repr

/-- The name of the fault in messages. -/
def ReadFault.title : ReadFault → String
  | .nothing => "No Valid SExp"
  | .unclosed => "No Closing Paren"
  | .unopened => "No Open Paren"
  | .mismatched => "Mismatched Parens"
  | .badToken => "Invalid Token"

/-- A failure to read, with the tokens that it took. -/
structure ReadError where
  fault : ReadFault
  tokens : List Token
  deriving DecidableEq, Repr

namespace ReadError

/-- The source text of the failure. -/
def source (e : ReadError) : String := Token.concat e.tokens

/-- What is wrong with the bad token, where a bad token is the failure. -/
def reason? (e : ReadError) : Option TokenFault :=
  match e.fault with
  | .badToken => e.tokens.findSome? Token.fault?
  | _ => none

/-- The failure in words: what it is, where, and for a bad token also why. -/
def message (e : ReadError) : String :=
  let place := "Read Error: " ++ e.fault.title ++ " for " ++ Text.trim e.source
  match e.reason? with
  | some fault => place ++ " (" ++ fault.reason ++ ")"
  | none => place

end ReadError

/-- The text of a boolean. -/
def booleanText (b : Bool) : String := if b then "#true" else "#false"

/-- The text of a string value. Strings have no escapes, so the quotes are all that is added. -/
def quotedText (s : String) : String := "\"" ++ s ++ "\""

/-- The texts, each after a space. -/
def spaced (texts : List String) : String := String.join (texts.map (" " ++ ·))

/-- An S-expression. -/
inductive Sexp where
  | string (content : String)
  | number (value : Float)
  | boolean (value : Bool)
  | name (word : String)
  | list (items : List Sexp)
  | error (error : ReadError)

namespace Sexp

mutual

/-- The S-expression as text: round brackets, one space between items, errors word for word but
without blanks at their ends. -/
def render : Sexp → String
  | .string content => quotedText content
  | .number value => Number.text value
  | .boolean value => booleanText value
  | .name word => word
  | .list items => "(" ++ " ".intercalate (renderAll items) ++ ")"
  | .error e => Text.trim e.source

/-- The texts of several S-expressions. -/
def renderAll : List Sexp → List String
  | [] => []
  | item :: items => item.render :: renderAll items

end

theorem renderAll_eq_map (items : List Sexp) : renderAll items = items.map render := by
  induction items with
  | nil => simp [renderAll]
  | cons item items ih => simp [renderAll, ih]

/-! ## Equality -/

mutual

/-- Whether two S-expressions are the same. -/
def same : Sexp → Sexp → Bool
  | .string a, .string b => a = b
  | .number a, .number b => a = b
  | .boolean a, .boolean b => a = b
  | .name a, .name b => a = b
  | .list as, .list bs => allSame as bs
  | .error e, .error f => e = f
  | _, _ => false

/-- Whether two lists of S-expressions are the same, item by item. -/
def allSame : List Sexp → List Sexp → Bool
  | [], [] => true
  | a :: as, b :: bs => a.same b && allSame as bs
  | _, _ => false

end

mutual

theorem same_iff : (a b : Sexp) → (a.same b = true ↔ a = b)
  | .list as, b => by cases b <;> simp [same, allSame_iff as]
  | .string _, b | .number _, b | .boolean _, b | .name _, b | .error _, b => by
    cases b <;> simp [same]

theorem allSame_iff : (as bs : List Sexp) → (allSame as bs = true ↔ as = bs)
  | [], bs => by cases bs <;> simp [allSame]
  | a :: as, bs => by cases bs <;> simp [allSame, same_iff a, allSame_iff as]

end

instance : DecidableEq Sexp := fun a b => decidable_of_iff (a.same b = true) (same_iff a b)

/-! ## Nouns -/

/-- The nouns that messages have for S-expressions in a place where they do not belong. -/
inductive Noun where
  | string
  | number
  | boolean
  | keyword
  | variable
  | part
  deriving DecidableEq, Repr

/-- The noun with its article. -/
def Noun.phrase : Noun → String
  | .string => "a string"
  | .number => "a number"
  | .boolean => "a boolean"
  | .keyword => "a keyword"
  | .variable => "a variable"
  | .part => "a part"

end Sexp

end Tyro
