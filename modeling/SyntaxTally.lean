import SyntaxTally.Analyzer
import SyntaxTally.Analyzer.Engine
import SyntaxTally.Cache
import SyntaxTally.Cache.Shared
import SyntaxTally.CommandLine.Arguments
import SyntaxTally.CommandLine.Run
import SyntaxTally.CommandLine.Switch
import SyntaxTally.CommandLine.Tools
import SyntaxTally.CommandLine.Usage
import SyntaxTally.Counts
import SyntaxTally.Failure
import SyntaxTally.Files.Disk
import SyntaxTally.Files.Fault
import SyntaxTally.Files.Items
import SyntaxTally.Files.Path
import SyntaxTally.Ignore.Glob
import SyntaxTally.Ignore.Rule
import SyntaxTally.Ignore.Scope
import SyntaxTally.Language.Basic
import SyntaxTally.Language.Engine
import SyntaxTally.Language.Shipped
import SyntaxTally.Language.Support
import SyntaxTally.Log.Record
import SyntaxTally.Log.Sink
import SyntaxTally.Main
import SyntaxTally.Number.Decimal
import SyntaxTally.Number.Double
import SyntaxTally.Number.Numeral
import SyntaxTally.Pipeline.Basic
import SyntaxTally.Pipeline.Run
import SyntaxTally.Pipeline.Team
import SyntaxTally.Proofs.Analyzer
import SyntaxTally.Proofs.Analyzer.InMemory
import SyntaxTally.Proofs.Cache.Build
import SyntaxTally.Proofs.Cache.Turn
import SyntaxTally.Proofs.CommandLine.Effective
import SyntaxTally.Proofs.Counts
import SyntaxTally.Proofs.Files.RealPath
import SyntaxTally.Proofs.Files.Tree
import SyntaxTally.Proofs.Files.Way
import SyntaxTally.Proofs.Files.Write
import SyntaxTally.Proofs.Ignore.Depth
import SyntaxTally.Proofs.Ignore.Glob
import SyntaxTally.Proofs.Ignore.Lines
import SyntaxTally.Proofs.Ignore.Rule
import SyntaxTally.Proofs.Ignore.Written
import SyntaxTally.Proofs.Language.Resolution
import SyntaxTally.Proofs.Pipeline.Ledger
import SyntaxTally.Proofs.Pipeline.Links
import SyntaxTally.Proofs.Pipeline.Liveness
import SyntaxTally.Proofs.Pipeline.Outcome
import SyntaxTally.Proofs.Pipeline.Room
import SyntaxTally.Proofs.Pipeline.Settlement
import SyntaxTally.Proofs.Pipeline.Step
import SyntaxTally.Proofs.Pipeline.Team
import SyntaxTally.Proofs.Query.Calls
import SyntaxTally.Proofs.Query.Match
import SyntaxTally.Proofs.Query.Shipped
import SyntaxTally.Proofs.Query.Tally
import SyntaxTally.Proofs.Query.Ways
import SyntaxTally.Proofs.Reduction
import SyntaxTally.Proofs.Report.Painter
import SyntaxTally.Proofs.Report.Rows
import SyntaxTally.Proofs.Report.Table
import SyntaxTally.Proofs.Settings.Content
import SyntaxTally.Proofs.Settings.Key
import SyntaxTally.Proofs.Settings.Load
import SyntaxTally.Proofs.Slots
import SyntaxTally.Proofs.Text.Blank
import SyntaxTally.Proofs.Text.Case
import SyntaxTally.Proofs.Text.Utf8
import SyntaxTally.Proofs.Walk.Account
import SyntaxTally.Proofs.Walk.Choice
import SyntaxTally.Proofs.Walk.Decline
import SyntaxTally.Proofs.Walk.Ending
import SyntaxTally.Proofs.Walk.Excluded
import SyntaxTally.Proofs.Walk.Expand
import SyntaxTally.Proofs.Walk.Explore
import SyntaxTally.Proofs.Walk.Layers
import SyntaxTally.Proofs.Walk.Locked
import SyntaxTally.Proofs.Walk.Part
import SyntaxTally.Proofs.Walk.Reach
import SyntaxTally.Proofs.Walk.Scan
import SyntaxTally.Proofs.Walk.Schedule
import SyntaxTally.Proofs.Walk.Shared
import SyntaxTally.Proofs.Walk.Twin
import SyntaxTally.Proofs.Walk.Unread
import SyntaxTally.Query.Basic
import SyntaxTally.Query.Match
import SyntaxTally.Query.Pattern
import SyntaxTally.Query.Reader
import SyntaxTally.Query.Regex
import SyntaxTally.Report.Cells
import SyntaxTally.Report.Markup
import SyntaxTally.Report.Table
import SyntaxTally.Report.Terminal
import SyntaxTally.Settings
import SyntaxTally.Settings.Field
import SyntaxTally.Settings.File
import SyntaxTally.Syntax.Grammar
import SyntaxTally.Syntax.Lexeme
import SyntaxTally.Syntax.Python.Grammar
import SyntaxTally.Syntax.Python.Lexis
import SyntaxTally.Syntax.Rust.Grammar
import SyntaxTally.Syntax.Rust.Lexis
import SyntaxTally.Syntax.Tree
import SyntaxTally.Syntax.Vocabulary
import SyntaxTally.Text.Blank
import SyntaxTally.Text.Case
import SyntaxTally.Text.Digit
import SyntaxTally.Text.Printable
import SyntaxTally.Text.Quoted
import SyntaxTally.Text.Utf8
import SyntaxTally.Text.Wrap
import SyntaxTally.Walk.Expand
import SyntaxTally.Walk.Scan
import SyntaxTally.Walk.Shared
import SyntaxTally.Yaml.Cursor
import SyntaxTally.Yaml.Kind
import SyntaxTally.Yaml.Node
import SyntaxTally.Yaml.Scalar
import SyntaxTally.Yaml.Token
import SyntaxTally.Yaml.Token.Lexer
import SyntaxTally.Yaml.Value
