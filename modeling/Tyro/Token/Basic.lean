import Tyro.Span

/-!
# Tokens

A token is a piece of source text with its kind and its place. There are three kinds of bracket,
which group alike but have to match, and three ways in which a token can be bad; a bad token is kept
like any other, so that the tokens of a text always make up the whole of it.
-/

namespace Tyro

/-- The three kinds of bracket. -/
inductive Bracket where
  | round
  | square
  | curly
  deriving DecidableEq, Repr

namespace Bracket

/-- The character that opens a group. -/
def opener : Bracket → Char
  | .round => '('
  | .square => '['
  | .curly => '\x7b'

/-- The character that closes a group. -/
def closer : Bracket → Char
  | .round => ')'
  | .square => ']'
  | .curly => '\x7d'

/-- All kinds of bracket. -/
def all : List Bracket := [.round, .square, .curly]

/-- The bracket that a character opens. -/
def ofOpener? (c : Char) : Option Bracket := all.find? fun b => b.opener = c

/-- The bracket that a character closes. -/
def ofCloser? (c : Char) : Option Bracket := all.find? fun b => b.closer = c

theorem ofOpener?_opener (b : Bracket) : ofOpener? b.opener = some b := by cases b <;> decide

theorem ofCloser?_closer (b : Bracket) : ofCloser? b.closer = some b := by cases b <;> decide

end Bracket

/-- What makes a token bad. -/
inductive TokenFault where
  /-- A character that starts no token. -/
  | unrecognized
  /-- A dot that stands alone. -/
  | loneDot
  /-- A word that starts with a hash sign and is no boolean. -/
  | badHash
  deriving DecidableEq, Repr

/-- The fault in words. -/
def TokenFault.reason : TokenFault → String
  | .unrecognized => "unrecognized character"
  | .loneDot => "illegal use of \".\""
  | .badHash => "bad syntax"

/-- The kinds of token. A run of blank characters and a comment are both blank tokens. -/
inductive TokenKind where
  | opener (bracket : Bracket)
  | closer (bracket : Bracket)
  | number
  | string
  | name
  | boolean
  | blank
  | bad (fault : TokenFault)
  deriving DecidableEq, Repr

/-- A piece of source text. -/
structure Token where
  kind : TokenKind
  /-- The piece exactly as it stands in the source. -/
  text : String
  /-- Where it stands in the source. -/
  span : Span
  deriving DecidableEq, Repr

namespace Token

/-- Whether the token only separates others. -/
def isBlank (t : Token) : Bool := t.kind = .blank

/-- What is wrong with the token, if anything is. -/
def fault? (t : Token) : Option TokenFault :=
  match t.kind with
  | .bad fault => some fault
  | _ => none

/-- The token as it is shown in a message: a bad one is followed by what is wrong with it. -/
def describe (t : Token) : String :=
  match t.kind with
  | .bad fault => t.text ++ ": " ++ fault.reason
  | _ => t.text

/-- The source text that the tokens make up. -/
def concat (tokens : List Token) : String := String.join (tokens.map (·.text))

end Token

end Tyro
