import Scriptlet.Command.Answer
import Scriptlet.Command.FileTree
import Scriptlet.Command.Invocation
import Scriptlet.Command.Session
import Scriptlet.Evaluation
import Scriptlet.Fault
import Scriptlet.Grammar
import Scriptlet.Heap
import Scriptlet.Log
import Scriptlet.Main
import Scriptlet.Parse
import Scriptlet.Parse.Event
import Scriptlet.Parse.Nesting
import Scriptlet.Parse.Parser
import Scriptlet.Parse.Program
import Scriptlet.Parse.Routine
import Scriptlet.Position
import Scriptlet.Report
import Scriptlet.Stack
import Scriptlet.Syntax
import Scriptlet.Syntax.Canonical
import Scriptlet.Syntax.Record
import Scriptlet.Syntax.Shape
import Scriptlet.Text.Blank
import Scriptlet.Text.Bytes
import Scriptlet.Text.CharacterRange
import Scriptlet.Text.Decimal
import Scriptlet.Text.Lines
import Scriptlet.Text.Quoted
import Scriptlet.Text.Record
import Scriptlet.Text.Unprintable
import Scriptlet.Token
import Scriptlet.Token.Piece
import Scriptlet.Token.Rule
import Scriptlet.Token.Scanner
import Scriptlet.Token.Stream
import Scriptlet.Value
import Scriptlet.Value.Operation
import Scriptlet.Proofs.Parse.Orderly
import Scriptlet.Proofs.Grammar.Reading
import Scriptlet.Proofs.Grammar.Soundness
import Scriptlet.Proofs.Grammar.Accepted
import Scriptlet.Proofs.Grammar.Completeness
import Scriptlet.Proofs.Grammar.Recognised
import Scriptlet.Proofs.Canonical.Rendering
import Scriptlet.Proofs.Canonical.RoundTrip
import Scriptlet.Proofs.Canonical.Printed
import Scriptlet.Proofs.Canonical.Depth
import Scriptlet.Proofs.Canonical.Settled
import Scriptlet.Proofs.Canonical.Limit
import Scriptlet.Proofs.Nesting.Height
import Scriptlet.Proofs.Nesting.Limit
import Scriptlet.Proofs.Evaluation.Frame
import Scriptlet.Proofs.Evaluation.Arithmetic
import Scriptlet.Proofs.Return.Encoding
import Scriptlet.Proofs.Return.Faithful
import Scriptlet.Proofs.Return.Handing
import Scriptlet.Proofs.Meaning.Bare
import Scriptlet.Proofs.Meaning.Layout
import Scriptlet.Proofs.Parse.Comparison
import Scriptlet.Proofs.Parse.Companions
import Scriptlet.Proofs.Parse.Recovery
import Scriptlet.Proofs.Parse.Pulled
import Scriptlet.Proofs.Parse.Displaced
import Scriptlet.Proofs.Parse.Respaced
import Scriptlet.Proofs.Parse.Settling
import Scriptlet.Proofs.Parse.Supplied
import Scriptlet.Proofs.Token.Joining
import Scriptlet.Proofs.Token.Pulling
import Scriptlet.Proofs.Token.Scanning
import Scriptlet.Proofs.Token.Tiling
import Scriptlet.Proofs.Token.Ordered
import Scriptlet.Proofs.Token.Shifted
import Scriptlet.Proofs.Parse.Unclosed
import Scriptlet.Proofs.Parse.OpenBlocks
import Scriptlet.Proofs.Parse.Calls
import Scriptlet.Proofs.Parse.Tally
import Scriptlet.Proofs.Session.Lines
import Scriptlet.Proofs.Parse.Pointing
import Scriptlet.Proofs.Parse.SourceOrder
import Scriptlet.Proofs.Evaluation.Failing
import Scriptlet.Proofs.Syntax.Nodes
import Scriptlet.Proofs.Text.Lookup
import Scriptlet.Proofs.Evaluation.Provenance
import Scriptlet.Proofs.Report.Places
import Scriptlet.Proofs.Session.Faults
import Scriptlet.Proofs.Canonical.Rereading
import Scriptlet.Proofs.Parse.Recursion
import Scriptlet.Proofs.Parse.Throughout
import Scriptlet.Proofs.Nesting.Metering
import Scriptlet.Proofs.Nesting.Accounting
import Scriptlet.Proofs.Parse.Unrolling
import Scriptlet.Proofs.Parse.Finishing
import Scriptlet.Proofs.Token.LongestMatch
import Scriptlet.Proofs.Report.Caret
import Scriptlet.Proofs.Scope.Happenings
import Scriptlet.Proofs.Scope.Nearest
