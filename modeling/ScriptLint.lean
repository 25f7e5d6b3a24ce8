import ScriptLint.Action
import ScriptLint.Analysis
import ScriptLint.Check.Basic
import ScriptLint.Check.Colors
import ScriptLint.Check.Constants
import ScriptLint.Check.Evaluate
import ScriptLint.Check.FirstLines
import ScriptLint.Check.Functions
import ScriptLint.Check.Options
import ScriptLint.Check.Settings
import ScriptLint.Check.Surroundings
import ScriptLint.Command.Check
import ScriptLint.Command.Format
import ScriptLint.Command.Host
import ScriptLint.Command.Init
import ScriptLint.Command.Run
import ScriptLint.CommandLine.Options
import ScriptLint.CommandLine.Parser
import ScriptLint.CommandLine.Request
import ScriptLint.Config.Basic
import ScriptLint.Config.Decode
import ScriptLint.Config.Locate
import ScriptLint.Config.Template
import ScriptLint.Config.Validate
import ScriptLint.Course
import ScriptLint.Decimal.Binary64
import ScriptLint.Decimal.Natural
import ScriptLint.Decimal.Shortest
import ScriptLint.ExitCode
import ScriptLint.Failure
import ScriptLint.FileResult
import ScriptLint.FileTree.Basic
import ScriptLint.FileTree.Edit
import ScriptLint.FileTree.Resolve
import ScriptLint.FileTree.Walk
import ScriptLint.Finding
import ScriptLint.Formatting.Formatter
import ScriptLint.Formatting.Outcome
import ScriptLint.Glob.Basic
import ScriptLint.Glob.Match
import ScriptLint.Glob.Parser
import ScriptLint.Inspection
import ScriptLint.IoError
import ScriptLint.Json.Basic
import ScriptLint.Json.Printer
import ScriptLint.Keyed
import ScriptLint.Main
import ScriptLint.Palette
import ScriptLint.Path
import ScriptLint.Program.Basic
import ScriptLint.Program.Formatter
import ScriptLint.Program.Scripted
import ScriptLint.Program.Shell
import ScriptLint.Progress
import ScriptLint.Report.Checks
import ScriptLint.Report.Failure
import ScriptLint.Report.Format
import ScriptLint.Report.Json
import ScriptLint.Report.Outcomes
import ScriptLint.Report.Style
import ScriptLint.Report.Text
import ScriptLint.Scan.Candidate
import ScriptLint.Scan.Filter
import ScriptLint.Scan.Scan
import ScriptLint.Script
import ScriptLint.Shell.Assignment
import ScriptLint.Shell.Function
import ScriptLint.Shell.SetOption
import ScriptLint.Summary
import ScriptLint.Text.Blank
import ScriptLint.Text.Concealed
import ScriptLint.Text.Lines
import ScriptLint.Text.Quoted
import ScriptLint.Text.Search
import ScriptLint.Text.Utf8
import ScriptLint.Text.Word
import ScriptLint.Toml.Describe
import ScriptLint.Toml.Document
import ScriptLint.Toml.Moment
import ScriptLint.Toml.Node
import ScriptLint.Toml.Number
import ScriptLint.Toml.Parser
import ScriptLint.Toml.Reader
import ScriptLint.Toml.Strings
import ScriptLint.Toml.Value
import ScriptLint.Trace
import ScriptLint.Verbosity
import ScriptLint.Workers
import ScriptLint.Proofs.Action
import ScriptLint.Proofs.Course
import ScriptLint.Proofs.Workers
import ScriptLint.Proofs.Inspection
import ScriptLint.Proofs.CheckRun
import ScriptLint.Proofs.ExitCodes
import ScriptLint.Proofs.Failure
import ScriptLint.Proofs.Findings
import ScriptLint.Proofs.Location
import ScriptLint.Proofs.Resolution
import ScriptLint.Proofs.Scan
import ScriptLint.Proofs.Summary
import ScriptLint.Proofs.SyntaxGate
import ScriptLint.Proofs.Verdict
import ScriptLint.Proofs.Walk
import ScriptLint.Proofs.Disabling
import ScriptLint.Proofs.LineEnds
import ScriptLint.Proofs.Reports
import ScriptLint.Proofs.ByteOrder
import ScriptLint.Proofs.Visible
import ScriptLint.Proofs.DirectoryScan
import ScriptLint.Proofs.Readers
import ScriptLint.Proofs.JsonGrammar
import ScriptLint.Proofs.JsonReader
import ScriptLint.Proofs.ReportText
import ScriptLint.Proofs.ConfigDocument
import ScriptLint.Proofs.DisabledSyntax
import ScriptLint.Proofs.ExclusiveFlags
import ScriptLint.Proofs.Convergence
import ScriptLint.Proofs.FormatRuns
import ScriptLint.Proofs.Changes
import ScriptLint.Proofs.AfterInit
import ScriptLint.Proofs.ColorGroups
import ScriptLint.Proofs.DividedSummary
import ScriptLint.Proofs.FunctionBodies
import ScriptLint.Proofs.FindingLines
import ScriptLint.Proofs.Grouping
import ScriptLint.Proofs.Characters
import ScriptLint.Proofs.Decoration
import ScriptLint.Proofs.SingleLines
import ScriptLint.Proofs.ReportLines
import ScriptLint.Proofs.LineGrammar
import ScriptLint.Proofs.FunctionBlocks
import ScriptLint.Proofs.Patterns
import ScriptLint.Proofs.SetWords
import ScriptLint.Proofs.SetPatterns
import ScriptLint.Proofs.WrongColors
import ScriptLint.Proofs.FormatterAnswers
import ScriptLint.Proofs.LoggingUsage
import ScriptLint.Proofs.ReadonlyConstants
import ScriptLint.Proofs.IgnoreMarker
import ScriptLint.Proofs.FirstCommand
import ScriptLint.Proofs.LiveColors
import ScriptLint.Proofs.OverhangingBraces
import ScriptLint.Proofs.ReportOrder
import ScriptLint.Proofs.ShownPaths
import ScriptLint.Proofs.ColorPartition
import ScriptLint.Proofs.OptionValues
import ScriptLint.Proofs.WrittenRequests
