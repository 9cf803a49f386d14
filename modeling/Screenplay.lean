import Screenplay.Action
import Screenplay.Action.Parser
import Screenplay.Artifact
import Screenplay.Checksum
import Screenplay.CommandLine
import Screenplay.CommandLine.Arguments
import Screenplay.CommandLine.Commands
import Screenplay.CommandLine.Documents
import Screenplay.CommandLine.Project
import Screenplay.CommandLine.Session
import Screenplay.Compile
import Screenplay.Decimal.Shortest
import Screenplay.Engine
import Screenplay.Entries
import Screenplay.Expr
import Screenplay.Expr.Evaluation
import Screenplay.Expr.Interpolation
import Screenplay.Expr.Parser
import Screenplay.Failure
import Screenplay.Files
import Screenplay.Guard
import Screenplay.InputError
import Screenplay.Json
import Screenplay.Level
import Screenplay.Location
import Screenplay.Main
import Screenplay.Manifest
import Screenplay.Manifest.Options
import Screenplay.Names
import Screenplay.Node
import Screenplay.Node.Parser
import Screenplay.Number
import Screenplay.ParseError
import Screenplay.Path
import Screenplay.Policy
import Screenplay.Program
import Screenplay.Program.Checks
import Screenplay.Program.Declarations
import Screenplay.Program.Document
import Screenplay.Program.Outline
import Screenplay.Program.Parser
import Screenplay.Program.References
import Screenplay.Program.Sites
import Screenplay.Proofs.Compile.Agreement
import Screenplay.Proofs.Compile.Levels
import Screenplay.Proofs.Compile.Stages
import Screenplay.Proofs.Decimal.Reading
import Screenplay.Proofs.Decimal.Rounding
import Screenplay.Proofs.Decimal.Wholes
import Screenplay.Proofs.Expr.Equality
import Screenplay.Proofs.Guard.Admission
import Screenplay.Proofs.Guard.Checking
import Screenplay.Proofs.Guard.Denylist
import Screenplay.Proofs.Guard.Enforcement
import Screenplay.Proofs.Json.Numbers
import Screenplay.Proofs.Json.Sorted
import Screenplay.Proofs.Json.Texts
import Screenplay.Proofs.Parse.Alike
import Screenplay.Proofs.Parse.Blocks
import Screenplay.Proofs.Parse.Completeness
import Screenplay.Proofs.Parse.Expressions
import Screenplay.Proofs.Parse.Grammar
import Screenplay.Proofs.Parse.Interpolation
import Screenplay.Proofs.Parse.Levels
import Screenplay.Proofs.Parse.Locations
import Screenplay.Proofs.Parse.Nesting
import Screenplay.Proofs.Parse.Operands
import Screenplay.Proofs.Parse.Paths
import Screenplay.Proofs.Parse.Progress
import Screenplay.Proofs.Parse.Reads
import Screenplay.Proofs.Parse.Rules
import Screenplay.Proofs.Parse.Sentences
import Screenplay.Proofs.Parse.Spans
import Screenplay.Proofs.Parse.Texts
import Screenplay.Proofs.Parse.Uniform
import Screenplay.Proofs.Parse.VettedPrograms
import Screenplay.Proofs.Parse.VettedTrees
import Screenplay.Proofs.Program.Documents
import Screenplay.Proofs.Program.Parts
import Screenplay.Proofs.Program.Places
import Screenplay.Proofs.Program.References
import Screenplay.Proofs.Program.Trees
import Screenplay.Proofs.Program.Vetted
import Screenplay.Proofs.Report.Addresses
import Screenplay.Proofs.Report.Allowed
import Screenplay.Proofs.Report.Calls
import Screenplay.Proofs.Report.Coverage
import Screenplay.Proofs.Report.Exact
import Screenplay.Proofs.Report.Hosts
import Screenplay.Proofs.Report.Judgements
import Screenplay.Proofs.Report.Relaxed
import Screenplay.Proofs.Report.Remaining
import Screenplay.Proofs.Report.Safety
import Screenplay.Proofs.Report.Uses
import Screenplay.Proofs.Run.Assignments
import Screenplay.Proofs.Run.Bookkeeping
import Screenplay.Proofs.Run.Budgets
import Screenplay.Proofs.Run.Ceilings
import Screenplay.Proofs.Run.Closing
import Screenplay.Proofs.Run.Containment
import Screenplay.Proofs.Run.Depths
import Screenplay.Proofs.Run.Steps
import Screenplay.Proofs.Run.Levels
import Screenplay.Proofs.Run.Mirrors
import Screenplay.Proofs.Run.Moments
import Screenplay.Proofs.Run.Origins
import Screenplay.Proofs.Run.Records
import Screenplay.Proofs.Run.Refusals
import Screenplay.Proofs.Run.Resolution
import Screenplay.Proofs.Run.Results
import Screenplay.Proofs.Run.Returns
import Screenplay.Proofs.Run.Safe
import Screenplay.Proofs.Run.Seeding
import Screenplay.Proofs.Run.Stopping
import Screenplay.Proofs.Run.Tasks
import Screenplay.Proofs.Run.Templates
import Screenplay.Proofs.Run.Tracing
import Screenplay.Proofs.Run.Traversal
import Screenplay.Proofs.Run.Unsupported
import Screenplay.Proofs.Run.Work
import Screenplay.Proofs.Store.Delivery
import Screenplay.Proofs.Store.Log
import Screenplay.Proofs.Store.Refinement
import Screenplay.Proofs.Store.Turns
import Screenplay.Proofs.Store.Writes
import Screenplay.Proofs.Text.Index
import Screenplay.Proofs.Text.Lines
import Screenplay.Proofs.Text.Pieces
import Screenplay.Proofs.Text.Positions
import Screenplay.Proofs.Token.Spelling
import Screenplay.Proofs.Token.Tiling
import Screenplay.Range
import Screenplay.Report
import Screenplay.Report.Analysis
import Screenplay.Report.Finding
import Screenplay.Run
import Screenplay.RunError
import Screenplay.Screen.Parser
import Screenplay.Settings
import Screenplay.Settings.Parser
import Screenplay.Store
import Screenplay.Table
import Screenplay.Text.Blank
import Screenplay.Text.Case
import Screenplay.Text.Digit
import Screenplay.Text.Lines
import Screenplay.Text.Markup
import Screenplay.Text.Printable
import Screenplay.Text.Quoted
import Screenplay.Text.Search
import Screenplay.Text.Utf8
import Screenplay.Text.Word
import Screenplay.Token
import Screenplay.Token.Lexer
import Screenplay.Token.Parse
import Screenplay.Total
import Screenplay.Value
import Screenplay.Value.Parser
import Screenplay.Violation
