import Tyro.Token.Scan

/-!
# When an entry is complete

At a prompt, an entry may take several lines. It is complete when every bracket in it is matched. A
closing bracket that matches nothing, or the wrong bracket, makes it wrong for good; an entry with
open brackets, or with a double quote that begins a string without an end, waits for more. What
comes first in the text decides.
-/

namespace Tyro.Entry

/-- What is wrong with a closing bracket, and the byte offset at which it stands. -/
inductive BracketFault where
  | crossed (closer opener : Bracket) (position : Nat)
  | unmatched (closer : Bracket) (position : Nat)
  deriving DecidableEq, Repr

/-- The fault in words. -/
def BracketFault.message : BracketFault → String
  | .crossed closer opener position =>
    "  - '" ++ String.singleton closer.closer ++ "' closes '" ++ String.singleton opener.opener ++
      "' at position " ++ toString position
  | .unmatched closer position =>
    "  - Unmatched '" ++ String.singleton closer.closer ++ "' at position " ++ toString position

/-- The state of an entry. -/
inductive Verdict where
  | complete
  | incomplete
  | wrong (fault : BracketFault)
  deriving DecidableEq, Repr

/-- Whether a token is a double quote that no other follows. -/
def isLoneQuote (t : Token) : Bool := t.kind = .bad .unrecognized && t.text = "\""

/-- The verdict on the tokens that follow, with the open brackets innermost first. -/
def verdictFrom (opened : List Bracket) : List Token → Verdict
  | [] => if opened.isEmpty then .complete else .incomplete
  | t :: ts =>
    match t.kind, opened with
    | .opener b, _ => verdictFrom (b :: opened) ts
    | .closer b, innermost :: outer =>
      if innermost = b then verdictFrom outer ts else .wrong (.crossed b innermost t.span.start)
    | .closer b, [] => .wrong (.unmatched b t.span.start)
    | _, _ => if isLoneQuote t then .incomplete else verdictFrom opened ts

/-- The verdict on an entry. -/
def verdict (source : String) : Verdict := verdictFrom [] (Token.scan source)

end Tyro.Entry
