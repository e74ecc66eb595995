import Amalgam.Text.Lines
import Amalgam.Text.Beginning
import Amalgam.Text.Ranges
import Amalgam.Text.Blank
import Amalgam.Text.WordChar
import Amalgam.Text.Printable
import Amalgam.Text.DecimalDigit
import Amalgam.Text.LowerCase
import Amalgam.Text.Quoted
import Amalgam.Text.CodePoint
import Amalgam.Text.Spelling
import Amalgam.Text.Utf8
import Amalgam.Number.Double
import Amalgam.Number.Decimal
import Amalgam.Number.Layout
import Amalgam.Number.Numeral
import Amalgam.Json.Value
import Amalgam.Json.Reader
import Amalgam.Json.Writer
import Amalgam.Source.File
import Amalgam.Source.Language
import Amalgam.Source.Kind
import Amalgam.Source.Index
import Amalgam.Source.Comment
import Amalgam.Source.Program
import Amalgam.Unit.Directive
import Amalgam.Report.Notice
import Amalgam.Unit.Row
import Amalgam.Unit.Expansion
import Amalgam.Unit.Session
import Amalgam.Unit.Bundle
import Amalgam.Report.Diagnostic
import Amalgam.Json.Check
import Amalgam.Remote.Request
import Amalgam.Disk
import Amalgam.Home
import Amalgam.Report.Failure
import Amalgam.Remote.Settings
import Amalgam.Remote.Service
import Amalgam.Remote.Payload
import Amalgam.Remote.Submission
import Amalgam.Cli.Grammar
import Amalgam.Cli.Command
import Amalgam.Main
import Amalgam.Proofs.Directive
import Amalgam.Proofs.Lookup
import Amalgam.Proofs.Rows
import Amalgam.Proofs.Expansion
import Amalgam.Proofs.Session
import Amalgam.Proofs.Bundle
import Amalgam.Proofs.IncludeGraph
import Amalgam.Proofs.Reading
import Amalgam.Proofs.Cycles
import Amalgam.Proofs.Attribution
import Amalgam.Proofs.Recursion
import Amalgam.Proofs.Origin
import Amalgam.Proofs.Blocks
import Amalgam.Proofs.Bracketing
import Amalgam.Proofs.Copies
import Amalgam.Proofs.LanguageTag
import Amalgam.Proofs.DiskWrite
import Amalgam.Proofs.Spelling
import Amalgam.Proofs.Nesting
import Amalgam.Proofs.Submission
import Amalgam.Proofs.Commands
import Amalgam.Proofs.Idempotence
import Amalgam.Proofs.Relevance
import Amalgam.Proofs.DepthLimit
import Amalgam.Proofs.Choice
import Amalgam.Proofs.NamePattern
import Amalgam.Proofs.Selection
import Amalgam.Proofs.CutLines
import Amalgam.Proofs.CommentScan
import Amalgam.Proofs.FileRecords
import Amalgam.Proofs.Acceptance
import Amalgam.Proofs.Preparation
import Amalgam.Proofs.DiskFrame
import Amalgam.Proofs.RemoteFailure
import Amalgam.Proofs.CallStack
import Amalgam.Proofs.Encoding
import Amalgam.Proofs.SettingsFile
import Amalgam.Proofs.RunCommand
import Amalgam.Proofs.Markers
import Amalgam.Proofs.PragmaOnce
import Amalgam.Proofs.StringLiteral
import Amalgam.Proofs.Decision
