import Tyro.Sexp.Basic
import Tyro.Token.Scan

/-!
# Reading

The reader runs over the tokens with a stack of open groups. An opening bracket pushes a group, and
a closing bracket pops the innermost one, whatever its kind: with the same kind the group is a list,
with another kind it is an error of all its tokens, and without an open group the bracket is an
error of its own. A bad token is an error by itself. Groups that are still open at the end make one
error out of everything from the outermost opening bracket on.

`Reader.step` is the whole of this; each token completes at most one S-expression at the top level.
`Sexp.readFirst` reads one S-expression and leaves the other tokens, `Sexp.readAll` reads all and
gives each its span.
-/

namespace Tyro

/-- An S-expression together with the tokens that it was read from. -/
structure Datum where
  sexp : Sexp
  tokens : List Token

/-- From the first to the last token that is not blank. -/
def Datum.span (d : Datum) : Span :=
  match (d.tokens.filter fun t => !t.isBlank).map (·.span) with
  | [] => ⟨0, 0⟩
  | first :: rest => rest.foldl Span.cover first

namespace Reader

/-- A group whose closing bracket has not been met. Tokens and items are kept newest first; the
tokens are those from the opening bracket on, those of finished groups inside included. -/
structure Group where
  bracket : Bracket
  tokens : List Token
  items : List Sexp

/-- What a group is once a bracket closes it. -/
def Group.close (g : Group) (bracket : Bracket) (t : Token) : Sexp :=
  if g.bracket = bracket then .list g.items.reverse
  else .error ⟨.mismatched, (t :: g.tokens).reverse⟩

/-- The S-expression of a token that stands for itself. A number too large for a double has no text
that could be read back, so it is an error. -/
def atom (t : Token) : Sexp :=
  match t.kind with
  | .number =>
    match Number.read? t.text.toList with
    | some value => .number value
    | none => .error ⟨.badToken, [t]⟩
  | .string => .string (String.ofList t.text.toList.tail.dropLast)
  | .boolean => .boolean (t.text = "#true" || t.text = "#t")
  | _ => .name t.text

/-- Hands a finished S-expression, with its tokens newest first, to the innermost open group, or out
if no group is open. -/
def deliver (sexp : Sexp) (tokens : List Token) : List Group → List Group × Option Datum
  | [] => ([], some ⟨sexp, tokens.reverse⟩)
  | g :: outer => ({ g with tokens := tokens ++ g.tokens, items := sexp :: g.items } :: outer, none)

/-- Takes one token, with the open groups innermost first. -/
def step (groups : List Group) (t : Token) : List Group × Option Datum :=
  match t.kind with
  | .blank =>
    match groups with
    | [] => ([], none)
    | g :: outer => ({ g with tokens := t :: g.tokens } :: outer, none)
  | .opener bracket => (⟨bracket, [t], []⟩ :: groups, none)
  | .closer bracket =>
    match groups with
    | [] => ([], some ⟨.error ⟨.unopened, [t]⟩, [t]⟩)
    | g :: outer => deliver (g.close bracket t) (t :: g.tokens) outer
  | .bad _ => deliver (.error ⟨.badToken, [t]⟩) [t] groups
  | _ => deliver (atom t) [t] groups

/-- What is left at the end of the text: open groups make one error of all their tokens. -/
def finish : List Group → Option Datum
  | [] => none
  | groups =>
    let tokens := (groups.flatMap (·.tokens)).reverse
    some ⟨.error ⟨.unclosed, tokens⟩, tokens⟩

/-- The data completed from here on. -/
def run (groups : List Group) : List Token → List Datum
  | [] => (finish groups).toList
  | t :: ts =>
    let (groups, datum) := step groups t
    datum.toList ++ run groups ts

/-- The first datum completed from here on, if there is one, and the tokens after it. -/
def runFirst (groups : List Group) : List Token → Option Datum × List Token
  | [] => (finish groups, [])
  | t :: ts =>
    match step groups t with
    | (_, some datum) => (some datum, ts)
    | (groups, none) => runFirst groups ts

/-- No token is added to those left over. -/
theorem length_runFirst_le (groups : List Group) (ts : List Token) :
    (runFirst groups ts).2.length ≤ ts.length := by
  induction ts generalizing groups with
  | nil => simp [runFirst]
  | cons t ts ih =>
    unfold runFirst
    split
    · simp
    · exact Nat.le_succ_of_le (ih _)

end Reader

namespace Sexp

/-- Reads one S-expression from the front and gives the tokens that are left. -/
def readFirst (tokens : List Token) : Sexp × List Token :=
  match Reader.runFirst [] tokens with
  | (some datum, rest) => (datum.sexp, rest)
  | (none, rest) => (.error ⟨.nothing, []⟩, rest)

/-- An S-expression and where it stands. -/
structure Located where
  sexp : Sexp
  span : Span
  deriving DecidableEq

/-- Reads all S-expressions, each with its span. -/
def readAll (tokens : List Token) : List Located :=
  (Reader.run [] tokens).map fun d => ⟨d.sexp, d.span⟩

/-- The S-expressions of a text, each with its span. -/
def ofText (source : String) : List Located := readAll (Token.scan source)

theorem length_readFirst_lt {t : Token} {ts : List Token} :
    (readFirst (t :: ts)).2.length < (t :: ts).length := by
  have key : (Reader.runFirst [] (t :: ts)).2.length < (t :: ts).length := by
    unfold Reader.runFirst
    split
    · simp
    · exact Nat.lt_succ_of_le (Reader.length_runFirst_le _ _)
  unfold readFirst
  split <;> simp_all

/-- Reads one S-expression after the other, each with the tokens left after it. The last one is the
failure to read anything where no tokens, or only blank ones, are left. -/
def readSteps (tokens : List Token) : List (Sexp × List Token) :=
  if tokens.all Token.isBlank then [readFirst tokens]
  else
    match tokens with
    | [] => []
    | t :: ts => readFirst (t :: ts) :: readSteps (readFirst (t :: ts)).2
termination_by tokens.length
decreasing_by exact length_readFirst_lt

end Sexp

end Tyro
