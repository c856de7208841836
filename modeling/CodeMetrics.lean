import CodeMetrics.Frontend.Parser
import CodeMetrics.Log.Writer
import CodeMetrics.Metrics.Snapshot
import CodeMetrics.Proofs.Cognitive.Charges
import CodeMetrics.Proofs.Cognitive.Comments
import CodeMetrics.Proofs.Cognitive.Contribution
import CodeMetrics.Proofs.Cognitive.ElseChains
import CodeMetrics.Proofs.Cognitive.Lockstep
import CodeMetrics.Proofs.Cognitive.Nesting
import CodeMetrics.Proofs.Cognitive.Operators
import CodeMetrics.Proofs.Cognitive.Parity
import CodeMetrics.Proofs.Cognitive.Recursion
import CodeMetrics.Proofs.Cognitive.Runs
import CodeMetrics.Proofs.Cognitive.Visitor
import CodeMetrics.Proofs.Cognitive.Visits
import CodeMetrics.Proofs.Frontend.FileReading
import CodeMetrics.Proofs.Frontend.History
import CodeMetrics.Proofs.Frontend.OutlineLines
import CodeMetrics.Proofs.Frontend.SourcePath
import CodeMetrics.Proofs.Frontend.SyntaxFaults
import CodeMetrics.Proofs.Grammar.CursorLoop
import CodeMetrics.Proofs.Grammar.Fidelity
import CodeMetrics.Proofs.Grammar.LeafTexts
import CodeMetrics.Proofs.Grammar.PregroupedForm
import CodeMetrics.Proofs.Grammar.Pregrouping
import CodeMetrics.Proofs.Grammar.SwitchLabels
import CodeMetrics.Proofs.Metrics.Agreement
import CodeMetrics.Proofs.Metrics.CommentLines
import CodeMetrics.Proofs.Metrics.Completion
import CodeMetrics.Proofs.Metrics.Distribution
import CodeMetrics.Proofs.Metrics.Exposure
import CodeMetrics.Proofs.Metrics.Isolation
import CodeMetrics.Proofs.Metrics.LastReturns
import CodeMetrics.Proofs.Metrics.Locations
import CodeMetrics.Proofs.Metrics.PregroupedTrees
import CodeMetrics.Proofs.Metrics.Thresholds
import CodeMetrics.Proofs.Metrics.Totals
import CodeMetrics.Proofs.Record.Written
import CodeMetrics.Proofs.Tree.Construction
import CodeMetrics.Proofs.Tree.Correspondence
import CodeMetrics.Proofs.Tree.Drafts
import CodeMetrics.Proofs.Tree.Links
import CodeMetrics.Proofs.Tree.Navigation
import CodeMetrics.Proofs.Tree.Positions
import CodeMetrics.Tree.Equality
import CodeMetrics.Tree.Layout
import CodeMetrics.Proofs.Files.Places
