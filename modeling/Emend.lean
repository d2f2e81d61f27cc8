import Emend.Command.Arguments
import Emend.Command.Codemod
import Emend.Command.Similar
import Emend.Command.Tool
import Emend.Command.Transform
import Emend.Config
import Emend.Config.File
import Emend.Console
import Emend.Document.Moment
import Emend.Document.Reader
import Emend.Document.Scalar
import Emend.Document.Writer
import Emend.Fault
import Emend.Fragment
import Emend.Glob
import Emend.Grammar.CasePattern
import Emend.Grammar.Category
import Emend.Grammar.Expression
import Emend.Grammar.Lexer
import Emend.Grammar.Line
import Emend.Grammar.Literal
import Emend.Grammar.Mark
import Emend.Grammar.Module
import Emend.Grammar.Parameter
import Emend.Grammar.Parser
import Emend.Grammar.Scan
import Emend.Grammar.Statement
import Emend.Grammar.Target
import Emend.Grammar.Token
import Emend.Grammar.Written
import Emend.Log
import Emend.Main
import Emend.Moment
import Emend.Patch
import Emend.Patch.Apply
import Emend.Patch.Diff
import Emend.Patch.Excerpt
import Emend.Patch.Fitted
import Emend.Path
import Emend.Pattern
import Emend.Pattern.Match
import Emend.Pattern.Reader
import Emend.Query
import Emend.Review.Decision
import Emend.Review.Run
import Emend.Review.Session
import Emend.Review.Visit
import Emend.Source
import Emend.Suggestor
import Emend.Suggestor.Builtin
import Emend.Suggestor.Marking
import Emend.Suggestor.Matching
import Emend.Suggestor.Script
import Emend.Text.Class
import Emend.Text.Decimal
import Emend.Text.Digit
import Emend.Text.Identifier
import Emend.Text.Letter
import Emend.Text.Lines
import Emend.Text.Lower
import Emend.Text.Printable
import Emend.Text.Quoted
import Emend.Text.Upper
import Emend.Text.Utf8
import Emend.Text.Word
import Emend.Tree
import Emend.Tree.Change
import Emend.Tree.Replace
import Emend.Value
import Emend.Proofs.RangeOrder
import Emend.Proofs.Stitching
import Emend.Proofs.Components
import Emend.Proofs.Resolution
import Emend.Proofs.CodePoints
import Emend.Proofs.Replacement
import Emend.Proofs.LineIndex
import Emend.Proofs.RefusedLines
import Emend.Proofs.Listing
import Emend.Proofs.Atomicity
import Emend.Proofs.Replay
import Emend.Proofs.Progress
import Emend.Proofs.Outcomes
import Emend.Proofs.Aggregates
import Emend.Proofs.Persistence
import Emend.Proofs.Sequence
import Emend.Proofs.DryRun
import Emend.Proofs.Prediction
import Emend.Proofs.Agreement
import Emend.Proofs.InputLines
import Emend.Proofs.AcceptAll
import Emend.Proofs.Troubles
import Emend.Proofs.ExitCodes
import Emend.Proofs.Steps
import Emend.Proofs.Counters
import Emend.Proofs.Utf8
import Emend.Proofs.Bytes
import Emend.Proofs.GroundedExpressions
import Emend.Proofs.Tokens
import Emend.Proofs.GroundedStatements
import Emend.Proofs.Hits
import Emend.Proofs.Displacement
import Emend.Proofs.Rearrangement
import Emend.Proofs.WrittenScalars
import Emend.Proofs.WrittenValues
import Emend.Proofs.WrittenDocuments
import Emend.Proofs.FileWrites
import Emend.Proofs.ConfigFile
import Emend.Proofs.TouchedLines
import Emend.Proofs.Diffs
import Emend.Proofs.ResultingLines
import Emend.Proofs.Underlines
import Emend.Proofs.Ways
import Emend.Proofs.Readings
import Emend.Proofs.Scans
import Emend.Proofs.MatchedPatches
import Emend.Proofs.ConsoleLines
import Emend.Proofs.ClosedCalls
import Emend.Proofs.Exports
import Emend.Proofs.ExportedNames
import Emend.Proofs.DirectoryListings
import Emend.Proofs.IgnoredPaths
import Emend.Proofs.Discovery
import Emend.Proofs.Pieces
import Emend.Proofs.RenamedExports
import Emend.Proofs.SkippedTexts
