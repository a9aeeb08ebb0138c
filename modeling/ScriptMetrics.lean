import ScriptMetrics.Analysis.Error
import ScriptMetrics.Analysis.Workbench
import ScriptMetrics.Files.Basic
import ScriptMetrics.Files.Discovery
import ScriptMetrics.Log.Event
import ScriptMetrics.Log.Logging
import ScriptMetrics.Log.Value
import ScriptMetrics.Main
import ScriptMetrics.Metrics.Chains
import ScriptMetrics.Metrics.Collect
import ScriptMetrics.Metrics.Complexity
import ScriptMetrics.Metrics.Nesting
import ScriptMetrics.Metrics.Record
import ScriptMetrics.Report.Attribute
import ScriptMetrics.Report.Basic
import ScriptMetrics.Report.Evaluation
import ScriptMetrics.Report.Ledger
import ScriptMetrics.Report.Print
import ScriptMetrics.Report.Severity
import ScriptMetrics.Run.Basic
import ScriptMetrics.Run.CommandLine
import ScriptMetrics.Run.Session
import ScriptMetrics.Run.Settings
import ScriptMetrics.Script.Cursor
import ScriptMetrics.Script.Expression
import ScriptMetrics.Script.Function
import ScriptMetrics.Script.Grammar
import ScriptMetrics.Script.Lexeme
import ScriptMetrics.Script.Literal
import ScriptMetrics.Script.Operand
import ScriptMetrics.Script.Pattern
import ScriptMetrics.Script.Reading
import ScriptMetrics.Script.Statement
import ScriptMetrics.Syntax.Arena
import ScriptMetrics.Syntax.Cst
import ScriptMetrics.Syntax.Kind
import ScriptMetrics.Syntax.ParentTable
import ScriptMetrics.Syntax.Walk
import ScriptMetrics.Text.Blank
import ScriptMetrics.Text.Capitals
import ScriptMetrics.Text.Elided
import ScriptMetrics.Text.Lines
import ScriptMetrics.Text.Printable
import ScriptMetrics.Text.Quoted
import ScriptMetrics.Text.Utf8
import ScriptMetrics.Proofs.Association
import ScriptMetrics.Proofs.Sequencing
import ScriptMetrics.Proofs.Outline
import ScriptMetrics.Proofs.Unfolding
import ScriptMetrics.Proofs.Descent
import ScriptMetrics.Proofs.Preorder
import ScriptMetrics.Proofs.Ancestry
import ScriptMetrics.Proofs.Totality
import ScriptMetrics.Proofs.Collection
import ScriptMetrics.Proofs.Subtrees
import ScriptMetrics.Proofs.Likeness
import ScriptMetrics.Proofs.Locality
import ScriptMetrics.Proofs.Bench
import ScriptMetrics.Proofs.Padding
import ScriptMetrics.Proofs.Regrowth
import ScriptMetrics.Proofs.Extension
import ScriptMetrics.Proofs.Outlet
import ScriptMetrics.Proofs.Logbook
import ScriptMetrics.Proofs.Limits
import ScriptMetrics.Proofs.Survey
import ScriptMetrics.Proofs.ExitStatus
import ScriptMetrics.Proofs.Numbering
import ScriptMetrics.Proofs.Counting
import ScriptMetrics.Proofs.Reuse
import ScriptMetrics.Proofs.Aggregation
import ScriptMetrics.Proofs.Enclosure
import ScriptMetrics.Proofs.Passage
import ScriptMetrics.Proofs.Routing
import ScriptMetrics.Proofs.Reconfiguration
import ScriptMetrics.Proofs.Listing
import ScriptMetrics.Proofs.Wording
import ScriptMetrics.Proofs.Noninterference
import ScriptMetrics.Proofs.Cycles
import ScriptMetrics.Proofs.Trails
import ScriptMetrics.Proofs.Blockage
import ScriptMetrics.Proofs.Segments
import ScriptMetrics.Proofs.Composition
import ScriptMetrics.Proofs.Containment
import ScriptMetrics.Proofs.Naming
import ScriptMetrics.Proofs.Reordering
import ScriptMetrics.Proofs.Bounds
import ScriptMetrics.Proofs.Damage
import ScriptMetrics.Proofs.Decoding
import ScriptMetrics.Proofs.Excerpts
import ScriptMetrics.Proofs.LineEnds
import ScriptMetrics.Proofs.Coloring
import ScriptMetrics.Proofs.Legibility
import ScriptMetrics.Proofs.Rating
import ScriptMetrics.Proofs.Renaming
import ScriptMetrics.Proofs.Freezing
