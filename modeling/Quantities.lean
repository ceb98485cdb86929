import Quantities.Context.Workspace
import Quantities.Evaluation.Statement
import Quantities.Grammar.Statement
import Quantities.Main
import Quantities.Proofs.Kind.Typing
import Quantities.Tree.Layout
import Quantities.Tree.Outline
import Quantities.Tree.Text
import Quantities.Typing.Statement
import Quantities.Proofs.Kind.Evaluation
import Quantities.Proofs.Soundness.Program
import Quantities.Proofs.Token.Scanning
import Quantities.Proofs.Session.Incremental
import Quantities.Proofs.Number.Sign
import Quantities.Proofs.Number.Text
import Quantities.Proofs.Alike.Running
import Quantities.Proofs.Context.Growth
import Quantities.Proofs.Grammar.Lines
import Quantities.Proofs.Written.Expression
import Quantities.Proofs.Written.Indentation
import Quantities.Proofs.Token.Spelling
import Quantities.Proofs.Store.Sharing
import Quantities.Proofs.Written.Program
import Quantities.Proofs.Tree.Layout
import Quantities.Proofs.Exact.Program
import Quantities.Proofs.Grounded.Session
import Quantities.Proofs.Quantity.Conversion
import Quantities.Proofs.Context.Extension
import Quantities.Proofs.Store.Arising
import Quantities.Proofs.Context.Discipline
import Quantities.Proofs.Visible.Running
import Quantities.Proofs.Visible.Checking
import Quantities.Proofs.Visible.Course
import Quantities.Proofs.Session.Same
import Quantities.Proofs.Session.Transcript
import Quantities.Proofs.Number.Neutral
import Quantities.Proofs.Written.Value
import Quantities.Proofs.Known.Expression
import Quantities.Proofs.Token.Longest
import Quantities.Proofs.Token.Pattern
import Quantities.Proofs.Source.Slice
import Quantities.Proofs.Token.Munch
import Quantities.Proofs.Grammar.Took
import Quantities.Proofs.Grammar.ExpressionCut
import Quantities.Proofs.Grammar.StatementCut
import Quantities.Proofs.Token.Segment
import Quantities.Proofs.Tree.Linked
import Quantities.Proofs.Grammar.Locations
import Quantities.Proofs.Grammar.Lookahead
import Quantities.Proofs.Grammar.Stuck
import Quantities.Proofs.Grammar.ExpressionStuck
import Quantities.Proofs.Grammar.StatementStuck
import Quantities.Proofs.Grammar.Refusal
import Quantities.Proofs.Foretold.Expression
import Quantities.Proofs.Session.Forgetting
import Quantities.Proofs.Written.Grouped
import Quantities.Proofs.Founded.Text
import Quantities.Proofs.Fault
import Quantities.Proofs.Fault.Rules
import Quantities.Proofs.Fault.Origin
import Quantities.Proofs.Fault.Explained
import Quantities.Proofs.Grammar.Spacing
import Quantities.Proofs.Foretold.Abstraction
import Quantities.Proofs.Dimensions.Laws
import Quantities.Proofs.Source.Position
import Quantities.Proofs.Report.Heading
import Quantities.Proofs.Kind.Preorder
import Quantities.Proofs.Tree.Walk
import Quantities.Proofs.Grammar.Forest
import Quantities.Proofs.Grammar.Termination
