import Tyro.CommandLine
import Tyro.Editor.Complete
import Tyro.Editor.Highlight
import Tyro.Editor.Validate
import Tyro.Eval.Fuel
import Tyro.Main
import Tyro.Prompt
import Tyro.Session
import Tyro.Proofs.Token.Piece
import Tyro.Proofs.Token.Written
import Tyro.Proofs.Token.Line
import Tyro.Proofs.Number.Magnitude
import Tyro.Proofs.Sexp.Invariant
import Tyro.Proofs.Sexp.Spell
import Tyro.Proofs.Sexp.Shift
import Tyro.Proofs.Editor.Verdict
import Tyro.Proofs.Number.Bits
import Tyro.Proofs.Number.RoundTrip
import Tyro.Proofs.Sexp.Legible
import Tyro.Proofs.Expr.Printable
import Tyro.Proofs.Expr.Parsed
import Tyro.Proofs.Form.RoundTrip
import Tyro.Proofs.Store.Slots
import Tyro.Proofs.Program.Moments
import Tyro.Proofs.Program.Fuel
import Tyro.Proofs.Store.Home
import Tyro.Proofs.Builtin.Results
import Tyro.Proofs.Eval.Follows
import Tyro.Proofs.Program.Reached
import Tyro.Proofs.Store.Growth
import Tyro.Proofs.Program.Growth
import Tyro.Proofs.Sexp.Entries
import Tyro.Proofs.Prompt.Aligned
import Tyro.Proofs.Form.Grammar
import Tyro.Proofs.Sexp.Stack
import Tyro.Proofs.Program.Bare
import Tyro.Proofs.Program.Definitions
import Tyro.Proofs.Program.Order
import Tyro.Proofs.Store.Writable
import Tyro.Proofs.Program.Printed
import Tyro.Proofs.Editor.Balance
import Tyro.Proofs.Editor.Future
import Tyro.Proofs.Form.BoundNames
import Tyro.Proofs.Guarded.Read
import Tyro.Proofs.Guarded.Builtin
import Tyro.Proofs.Guarded.Eval
import Tyro.Proofs.Guarded.Run
import Tyro.Proofs.Program.Replacement
import Tyro.Proofs.Program.Edits
import Tyro.Proofs.Sexp.Spans
import Tyro.Proofs.Frames.Lexical
import Tyro.Proofs.Form.StructNames
import Tyro.Proofs.Program.Layout
import Tyro.Proofs.Program.Structs
import Tyro.Proofs.Token.Boundary
import Tyro.Proofs.Token.Specification
import Tyro.Proofs.Token.Replay
import Tyro.Proofs.Sexp.Makes
import Tyro.Proofs.Sexp.Reread
import Tyro.Proofs.Eval.Ends
import Tyro.Proofs.Program.Termination
import Tyro.Proofs.Eval.Ladder
import Tyro.Proofs.Form.Matching
import Tyro.Proofs.Store.Layers
import Tyro.Proofs.Prompt.Names
import Tyro.Proofs.Editor.Candidates
import Tyro.Proofs.Editor.Colors
import Tyro.Proofs.Builtin.Validation
import Tyro.Proofs.Program.Reports
import Tyro.Proofs.Program.Lines
