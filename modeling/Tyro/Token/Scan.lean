import Tyro.Text.Blank
import Tyro.Text.Bytes
import Tyro.Token.Basic

/-!
# Scanning

`Token.scan` cuts a text into tokens. It never fails: what cannot start a token becomes a bad token
of one character. The first character and what follows it decide the next token. A number is
preferred to everything else, so `1-2` is two numbers; a word runs up to the next delimiter, so
`x-1` is one name.

`lexeme c cs` gives the kind of the token that starts with `c` and the number of characters it takes
from `cs` *after* `c`. A token is never empty for that reason, and the scan ends because what is
left gets shorter.
-/

namespace Tyro.Token

/-! ## Numbers -/

/-- How many characters continue a number after its first digit: more digits, then a point if a
digit follows it, and the digits after the point. -/
def digitsAfter (cs : List Char) : Nat :=
  let whole := (cs.takeWhile Char.isDigit).length
  match cs.drop whole with
  | '.' :: c :: rest =>
    if c.isDigit then whole + 2 + (rest.takeWhile Char.isDigit).length else whole
  | _ => whole

/-- How many characters belong to the number that `c` starts, after `c`. A minus sign starts a
number if a digit follows it. -/
def numberAfter? (c : Char) (cs : List Char) : Option Nat :=
  if c.isDigit then some (digitsAfter cs)
  else if c = '-' then
    match cs with
    | d :: rest => if d.isDigit then some (1 + digitsAfter rest) else none
    | [] => none
  else none

/-! ## Words -/

/-- The characters that end a word, besides the blank ones: double and single quote, back quote,
comma, semicolon, bar and the brackets. -/
def delimiters : List Char :=
  ['\x22', '\x27', '\x60', ',', ';', '|', '(', ')', '[', ']', '\x7b', '\x7d']

/-- Whether a character can be part of a word. -/
def isWordChar (c : Char) : Bool := !Text.isBlank c && !delimiters.contains c

/-- The words for the two booleans, in full and short. -/
def booleanWords : List (List Char) :=
  [['#', 't', 'r', 'u', 'e'], ['#', 'f', 'a', 'l', 's', 'e'], ['#', 't'], ['#', 'f']]

/-- The kind of a word. A hash sign may only start a word that is a boolean, and a dot may not be a
word of its own. -/
def wordKind (word : List Char) : TokenKind :=
  if word = ['.'] then .bad .loneDot
  else if word ∈ booleanWords then .boolean
  else if word.head? = some '#' then .bad .badHash
  else .name

/-! ## Tokens -/

/-- The kind of the token that `c` starts before `cs`, and how many characters of `cs` belong to it.
A string runs to the next double quote and knows no escapes; a double quote that no other follows is
bad. -/
def lexeme (c : Char) (cs : List Char) : TokenKind × Nat :=
  match numberAfter? c cs with
  | some n => (.number, n)
  | none =>
    match Bracket.ofOpener? c, Bracket.ofCloser? c with
    | some b, _ => (.opener b, 0)
    | none, some b => (.closer b, 0)
    | none, none =>
      if c = '\x22' then
        let inside := (cs.takeWhile (· ≠ '\x22')).length
        if inside < cs.length then (.string, inside + 1) else (.bad .unrecognized, 0)
      else if c = ';' then (.blank, (cs.takeWhile (· ≠ '\n')).length)
      else if Text.isBlank c then (.blank, (cs.takeWhile Text.isBlank).length)
      else if isWordChar c then
        let more := cs.takeWhile isWordChar
        (wordKind (c :: more), more.length)
      else (.bad .unrecognized, 0)

/-- The tokens of a text that starts at the given byte offset. -/
def scanFrom (offset : Nat) : List Char → List Token
  | [] => []
  | c :: cs =>
    let (kind, more) := lexeme c cs
    let text := c :: cs.take more
    let stop := offset + Text.byteSize text
    ⟨kind, String.ofList text, ⟨offset, stop⟩⟩ :: scanFrom stop (cs.drop more)
termination_by cs => cs.length

/-- The tokens of a text. -/
def scan (source : String) : List Token := scanFrom 0 source.toList

/-- The tokens make up the text that was scanned: nothing is lost and nothing is added. -/
theorem flatMap_text_scanFrom (offset : Nat) (cs : List Char) :
    (scanFrom offset cs).flatMap (fun t => t.text.toList) = cs := by
  fun_induction scanFrom offset cs with
  | case1 => rfl
  | case2 offset c cs kind more found text stop ih =>
    simp only [List.flatMap_cons, String.toList_ofList, ih]
    simp only [text, List.cons_append, List.take_append_drop]

end Tyro.Token
