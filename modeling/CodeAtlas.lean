import CodeAtlas.Codebase.Basic
import CodeAtlas.Codebase.Report
import CodeAtlas.Codebase.Specifier
import CodeAtlas.CommandLine.Command
import CodeAtlas.CommandLine.Markup
import CodeAtlas.CommandLine.Options
import CodeAtlas.CommandLine.Run
import CodeAtlas.CommandLine.Shell
import CodeAtlas.Data
import CodeAtlas.Decimal.Shortest
import CodeAtlas.Distinct
import CodeAtlas.Fault
import CodeAtlas.Graph.Basic
import CodeAtlas.Graph.Build
import CodeAtlas.Graph.Imports
import CodeAtlas.Graph.Insights
import CodeAtlas.Graph.Related
import CodeAtlas.Json.Reader
import CodeAtlas.Json.Writer
import CodeAtlas.Main
import CodeAtlas.Numeral
import CodeAtlas.Path
import CodeAtlas.Pipeline.Context
import CodeAtlas.Pipeline.Document
import CodeAtlas.Pipeline.Generation
import CodeAtlas.Pipeline.Log
import CodeAtlas.Pipeline.Prompt
import CodeAtlas.Pipeline.Retrieval
import CodeAtlas.Pipeline.Session
import CodeAtlas.Pipeline.Structural
import CodeAtlas.Project.FileTree
import CodeAtlas.Project.Sources
import CodeAtlas.Service.Connection
import CodeAtlas.Service.Provider
import CodeAtlas.Service.Reply
import CodeAtlas.Service.Transport
import CodeAtlas.Settings.Basic
import CodeAtlas.Settings.Resolve
import CodeAtlas.Settings.Sections
import CodeAtlas.Settings.Store
import CodeAtlas.Source.Basic
import CodeAtlas.Source.Intake
import CodeAtlas.Source.Language
import CodeAtlas.Source.Parameter
import CodeAtlas.Source.Python
import CodeAtlas.Source.Scan
import CodeAtlas.Source.Script
import CodeAtlas.Stage.Record
import CodeAtlas.Stage.State
import CodeAtlas.Stage.Status
import CodeAtlas.Text.Basic
import CodeAtlas.Text.Blank
import CodeAtlas.Text.Case
import CodeAtlas.Text.Cursor
import CodeAtlas.Text.Digit
import CodeAtlas.Text.Nesting
import CodeAtlas.Text.Pattern
import CodeAtlas.Text.Printable
import CodeAtlas.Text.Ranges
import CodeAtlas.Text.Utf8
import CodeAtlas.Text.Word
import CodeAtlas.Toml.Reader
import CodeAtlas.Toml.Table
import CodeAtlas.Toml.Writer
import CodeAtlas.Proofs.Pattern.Parts
import CodeAtlas.Proofs.Source.Names
import CodeAtlas.Proofs.Graph.Ids
import CodeAtlas.Proofs.Codebase.Resolution
import CodeAtlas.Proofs.Graph.Structure
import CodeAtlas.Proofs.Graph.Distance
import CodeAtlas.Proofs.Pipeline.Exec
import CodeAtlas.Proofs.Pipeline.Stages
import CodeAtlas.Proofs.Pipeline.Runs
import CodeAtlas.Proofs.Pipeline.Outcome
import CodeAtlas.Proofs.Pipeline.Selection
import CodeAtlas.Proofs.Service.Answers
import CodeAtlas.Proofs.Text.Words
import CodeAtlas.Proofs.Pattern.Search
import CodeAtlas.Proofs.Pattern.Steps
import CodeAtlas.Proofs.Text.Brackets
import CodeAtlas.Proofs.Source.Parameters
import CodeAtlas.Proofs.Source.Order
import CodeAtlas.Proofs.Python.Module
import CodeAtlas.Proofs.Python.Reading
import CodeAtlas.Proofs.Pattern.Readings
import CodeAtlas.Proofs.Script.Source
import CodeAtlas.Proofs.Script.Texts
import CodeAtlas.Proofs.Script.Reading
import CodeAtlas.Proofs.Pattern.Absence
import CodeAtlas.Proofs.Script.Elsewhere
import CodeAtlas.Proofs.Script.Scan
import CodeAtlas.Proofs.Script.Statements
import CodeAtlas.Proofs.Script.Arrows
import CodeAtlas.Proofs.Script.Imports
import CodeAtlas.Proofs.Script.ImportReading
import CodeAtlas.Proofs.Script.ModuleNames
import CodeAtlas.Proofs.Script.ImportScan
import CodeAtlas.Proofs.Codebase.FileOrder
import CodeAtlas.Proofs.Graph.Imported
import CodeAtlas.Proofs.Graph.FileOrder
import CodeAtlas.Proofs.Pipeline.Isolation
import CodeAtlas.Proofs.Pipeline.Histories
import CodeAtlas.Proofs.Graph.Nearest
import CodeAtlas.Proofs.Pipeline.Course
import CodeAtlas.Proofs.Settings.Confinement
import CodeAtlas.Proofs.Data.Sameness
import CodeAtlas.Proofs.Settings.Changes
import CodeAtlas.Proofs.Graph.DepthFirst
import CodeAtlas.Proofs.Path.Segments
import CodeAtlas.Proofs.Codebase.ScriptImports
import CodeAtlas.Proofs.Codebase.Relocation
import CodeAtlas.Proofs.Pattern.Concatenation
import CodeAtlas.Proofs.Python.Concatenation
import CodeAtlas.Proofs.Codebase.DottedNames
import CodeAtlas.Proofs.Script.Exports
import CodeAtlas.Proofs.Graph.Inheritance
import CodeAtlas.Proofs.Pipeline.Delivery
import CodeAtlas.Proofs.Service.Quotation
import CodeAtlas.Proofs.Pipeline.Provenance
import CodeAtlas.Proofs.Order
import CodeAtlas.Proofs.Graph.Ranking
import CodeAtlas.Proofs.Graph.Exported
import CodeAtlas.Proofs.Graph.Outsiders
import CodeAtlas.Proofs.Codebase.Modules
import CodeAtlas.Proofs.Pipeline.Modules
import CodeAtlas.Proofs.Source.Layout
import CodeAtlas.Proofs.Settings.Blanks
import CodeAtlas.Proofs.Text.Lines
import CodeAtlas.Proofs.Pipeline.Fences
import CodeAtlas.Proofs.Source.Lines
import CodeAtlas.Proofs.Pipeline.Lines
import CodeAtlas.Proofs.Stage.Lifecycle
import CodeAtlas.Proofs.Text.Balance
import CodeAtlas.Proofs.Text.Splitting
import CodeAtlas.Proofs.Source.Assignments
