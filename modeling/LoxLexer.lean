import LoxLexer.Cli.FileTree
import LoxLexer.Cli.Help
import LoxLexer.Cli.Options
import LoxLexer.Cli.Outcome
import LoxLexer.Cli.Prompt
import LoxLexer.Cli.Run
import LoxLexer.Decimal.Binary64
import LoxLexer.Decimal.Layout
import LoxLexer.Decimal.Ratio
import LoxLexer.Decimal.Shortest
import LoxLexer.Diagnostic.Basic
import LoxLexer.Diagnostic.Log
import LoxLexer.Diagnostic.Sink
import LoxLexer.Diagnostic.Template
import LoxLexer.Json
import LoxLexer.Lexeme.Basic
import LoxLexer.Lexeme.First
import LoxLexer.Main
import LoxLexer.Proofs.Cli.FileMode
import LoxLexer.Proofs.Cli.Modes
import LoxLexer.Proofs.Cli.Presentation
import LoxLexer.Proofs.Cli.Session
import LoxLexer.Proofs.Decimal.Alphabet
import LoxLexer.Proofs.Decimal.Form
import LoxLexer.Proofs.Decimal.Grid
import LoxLexer.Proofs.Decimal.Interval
import LoxLexer.Proofs.Decimal.Nearest
import LoxLexer.Proofs.Decimal.ReadBack
import LoxLexer.Proofs.Decimal.Rounding
import LoxLexer.Proofs.Decimal.Shortest
import LoxLexer.Proofs.Diagnostic.Message
import LoxLexer.Proofs.Diagnostic.Substitution
import LoxLexer.Proofs.Grammar.Basic
import LoxLexer.Proofs.Grammar.Layout
import LoxLexer.Proofs.Grammar.LongestMatch
import LoxLexer.Proofs.Grammar.RoundTrip
import LoxLexer.Proofs.Json.Numbers
import LoxLexer.Proofs.Json.Reader
import LoxLexer.Proofs.Json.RoundTrip
import LoxLexer.Proofs.Lexeme.Cut
import LoxLexer.Proofs.Lexeme.Shape
import LoxLexer.Proofs.Report.Color
import LoxLexer.Proofs.Report.LineEndings
import LoxLexer.Proofs.Report.LineLookup
import LoxLexer.Proofs.Report.Marker
import LoxLexer.Proofs.Report.Pointing
import LoxLexer.Proofs.Report.SingleLine
import LoxLexer.Proofs.Scan.Coverage
import LoxLexer.Proofs.Scan.Cursor
import LoxLexer.Proofs.Scan.Delivery
import LoxLexer.Proofs.Scan.LineAgreement
import LoxLexer.Proofs.Scan.LineByLine
import LoxLexer.Proofs.Scan.LineEndings
import LoxLexer.Proofs.Scan.LogHistory
import LoxLexer.Proofs.Scan.Lookahead
import LoxLexer.Proofs.Scan.Moved
import LoxLexer.Proofs.Scan.Narration
import LoxLexer.Proofs.Scan.Placed
import LoxLexer.Proofs.Scan.Recovery
import LoxLexer.Proofs.Scan.Run
import LoxLexer.Proofs.Scan.Safety
import LoxLexer.Proofs.Scan.Seam
import LoxLexer.Proofs.Scan.Turn
import LoxLexer.Proofs.Scan.Walk
import LoxLexer.Proofs.Source.Bytes
import LoxLexer.Proofs.Source.Coordinates
import LoxLexer.Proofs.Source.LineCount
import LoxLexer.Proofs.Source.Spot
import LoxLexer.Proofs.Text.Backspace
import LoxLexer.Proofs.Token.Coherence
import LoxLexer.Proofs.Token.DumpLines
import LoxLexer.Proofs.Token.JsonDump
import LoxLexer.Proofs.Token.NumberText
import LoxLexer.Proofs.Token.NumberValue
import LoxLexer.Proofs.Token.TextDump
import LoxLexer.Report.Basic
import LoxLexer.Report.Excerpt
import LoxLexer.Report.Palette
import LoxLexer.Scan.Basic
import LoxLexer.Scan.Event
import LoxLexer.Scan.History
import LoxLexer.Scan.State
import LoxLexer.Source.LineIndex
import LoxLexer.Source.Lines
import LoxLexer.Source.Span
import LoxLexer.Text.Backspace
import LoxLexer.Text.Blank
import LoxLexer.Text.Cluster.Basic
import LoxLexer.Text.Cluster.Tables
import LoxLexer.Token.Basic
import LoxLexer.Token.Dump
import LoxLexer.Token.Keyword
import LoxLexer.Token.Kind
import LoxLexer.Token.Punctuation
import LoxLexer.Word
