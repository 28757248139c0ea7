import Tyro.Name
import Tyro.Token.Scan

/-!
# Highlighting

Tokens are coloured by kind for a terminal. Brackets are coloured by how they match: a pair of
different kinds and a closing bracket that matches nothing are marked as wrong, and a right pair is
marked when the cursor stands just behind one of its two ends. Colours are only put around tokens,
so the text itself stays as it is.
-/

namespace Tyro.Highlight

/-- The colours in use. -/
inductive Color where
  | green
  | cyan
  | magenta
  | red
  | boldRed
  | blue
  | boldBlue
  deriving DecidableEq, Repr

/-- The terminal's code for the colour. -/
def Color.code : Color → String
  | .green => "32"
  | .cyan => "36"
  | .magenta => "35"
  | .red => "31"
  | .boldRed => "1;31"
  | .blue => "34"
  | .boldBlue => "1;34"

/-- The text in a colour, between the terminal's sequences for the colour and for none. -/
def Color.paint (color : Color) (text : String) : String :=
  "\x1b[" ++ color.code ++ "m" ++ text ++ "\x1b[0m"

/-- The colour of a token by its kind. -/
def kindColor? (t : Token) : Option Color :=
  match t.kind with
  | .string => some .green
  | .number => some .cyan
  | .boolean => some .cyan
  | .name => if (Keyword.ofText? t.text).isSome then some .magenta else none
  | .bad _ => some .red
  | _ => none

/-- A token and the colour that it is to have. -/
abbrev Mark := Token × Color

/-- The marks of a pair of brackets. -/
def pairMarks (cursor : Nat) (opened closed : Bracket) (opener closer : Token) : List Mark :=
  if opened = closed then
    if closer.span.stop = cursor ∨ opener.span.stop = cursor then
      [(closer, .blue), (opener, .boldBlue)]
    else []
  else [(closer, .red), (opener, .boldRed)]

/-- The marks of the brackets among the tokens that follow, with the open brackets innermost first.
A closing bracket pairs with the innermost open one, whatever its kind. -/
def marksFrom (cursor : Nat) (opened : List (Bracket × Token)) : List Token → List Mark
  | [] => []
  | t :: ts =>
    match t.kind, opened with
    | .opener b, _ => marksFrom cursor ((b, t) :: opened) ts
    | .closer b, (innermost, opener) :: outer =>
      pairMarks cursor innermost b opener t ++ marksFrom cursor outer ts
    | .closer _, [] => (t, .red) :: marksFrom cursor [] ts
    | _, _ => marksFrom cursor opened ts

/-- The colour of a token: that of the last of its marks, or else that of its kind. -/
def color? (marks : List Mark) (t : Token) : Option Color :=
  match marks.reverse.find? fun mark => mark.1 = t with
  | some mark => some mark.2
  | none => kindColor? t

/-- The text of a token in its colour. -/
def paintToken (marks : List Mark) (t : Token) : String :=
  match color? marks t with
  | some color => color.paint t.text
  | none => t.text

/-- The text in colours, for a cursor at a byte offset. -/
def render (source : String) (cursor : Nat) : String :=
  let tokens := Token.scan source
  let marks := marksFrom cursor [] tokens
  String.join (tokens.map (paintToken marks))

end Tyro.Highlight
