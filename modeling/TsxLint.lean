import TsxLint.Binding.Model
import TsxLint.Binding.Provenance
import TsxLint.Binding.Reference
import TsxLint.Binding.Scope
import TsxLint.Binding.Survey
import TsxLint.Binding.Symbol
import TsxLint.Cli.Arguments
import TsxLint.Cli.Input
import TsxLint.Cli.Program
import TsxLint.Cli.Run
import TsxLint.Component.Function
import TsxLint.Component.Graph
import TsxLint.Component.Markup
import TsxLint.Config.Environment
import TsxLint.Config.Layers
import TsxLint.Config.Settings
import TsxLint.Data
import TsxLint.Data.Json
import TsxLint.Files.Disk
import TsxLint.Files.Filter
import TsxLint.Files.Glob.Basic
import TsxLint.Files.Glob.Reader
import TsxLint.Files.Ignore
import TsxLint.Files.Walk
import TsxLint.Guard
import TsxLint.Linter
import TsxLint.Lowering.Lower
import TsxLint.Lowering.Plan
import TsxLint.Lowering.Step
import TsxLint.Main
import TsxLint.Message
import TsxLint.Naming.Case
import TsxLint.Naming.Glob
import TsxLint.Naming.Vocabulary
import TsxLint.Path
import TsxLint.Proofs.Binding.Declarations
import TsxLint.Proofs.Binding.EnclosingFunction
import TsxLint.Proofs.Binding.NodeTable
import TsxLint.Proofs.Binding.Provenance
import TsxLint.Proofs.Binding.Reached
import TsxLint.Proofs.Binding.Resolution
import TsxLint.Proofs.Binding.ScopeTree
import TsxLint.Proofs.Binding.Shadowing
import TsxLint.Proofs.Binding.Symbols
import TsxLint.Proofs.Binding.Table
import TsxLint.Proofs.Binding.Walk
import TsxLint.Proofs.Binding.Writes
import TsxLint.Proofs.Component.Bodies
import TsxLint.Proofs.Component.Chains
import TsxLint.Proofs.Component.Forwarding
import TsxLint.Proofs.Component.Handoffs
import TsxLint.Proofs.Component.LongestPaths
import TsxLint.Proofs.Component.Roots
import TsxLint.Proofs.Config.Entries
import TsxLint.Proofs.Config.Layers
import TsxLint.Proofs.Config.Precedence
import TsxLint.Proofs.Data.FirstOccurrences
import TsxLint.Proofs.Data.Lookup
import TsxLint.Proofs.Data.StableSort
import TsxLint.Proofs.Data.Ways
import TsxLint.Proofs.Files.Disk
import TsxLint.Proofs.Files.Paths
import TsxLint.Proofs.Linter.Activation
import TsxLint.Proofs.Linter.MessageOrder
import TsxLint.Proofs.Linter.Positions
import TsxLint.Proofs.Lowering.ArrayPatterns
import TsxLint.Proofs.Lowering.Conformance
import TsxLint.Proofs.Lowering.Forms
import TsxLint.Proofs.Lowering.NodeForms
import TsxLint.Proofs.Lowering.Numbering
import TsxLint.Proofs.Lowering.Outline
import TsxLint.Proofs.Lowering.Plans
import TsxLint.Proofs.Lowering.Preorder
import TsxLint.Proofs.Lowering.SingleGoals
import TsxLint.Proofs.Lowering.Sorts
import TsxLint.Proofs.Lowering.Spans
import TsxLint.Proofs.Lowering.Texts
import TsxLint.Proofs.Lowering.TypeParts
import TsxLint.Proofs.Naming.Globs
import TsxLint.Proofs.Naming.Vocabularies
import TsxLint.Proofs.Report.Blocks
import TsxLint.Proofs.Report.Columns
import TsxLint.Proofs.Rule.ComponentFindings
import TsxLint.Proofs.Rule.CoreFindings
import TsxLint.Proofs.Rule.DrillingDepth
import TsxLint.Proofs.Rule.ExportArrangement
import TsxLint.Proofs.Rule.Findings
import TsxLint.Proofs.Rule.ForeignWrites
import TsxLint.Proofs.Rule.Frames
import TsxLint.Proofs.Rule.HandlerNames
import TsxLint.Proofs.Rule.NounVerbOrder
import TsxLint.Proofs.Rule.Places
import TsxLint.Proofs.Rule.PropFindings
import TsxLint.Proofs.Rule.Registry
import TsxLint.Proofs.Rule.RepeatedFindings
import TsxLint.Proofs.Rule.Substitution
import TsxLint.Proofs.Rule.Templates
import TsxLint.Proofs.Rule.WiredHandlers
import TsxLint.Proofs.Text.Cuts
import TsxLint.Proofs.Text.LetterCase
import TsxLint.Proofs.Text.Words
import TsxLint.Proofs.Toolchain.Repetition
import TsxLint.Proofs.Toolchain.Setup
import TsxLint.Proofs.Type.Composition
import TsxLint.Proofs.Type.Interfaces
import TsxLint.Proofs.Type.PropsContracts
import TsxLint.Proofs.Type.Reachability
import TsxLint.Proofs.Type.Readonly
import TsxLint.Proofs.Type.Routes
import TsxLint.Proofs.Type.Services
import TsxLint.Report.Format
import TsxLint.Report.Stylish
import TsxLint.Report.Summary
import TsxLint.Rule.Basic
import TsxLint.Rule.Compound
import TsxLint.Rule.FunctionSize
import TsxLint.Rule.HandlerContract
import TsxLint.Rule.HandlerName
import TsxLint.Rule.HelperName
import TsxLint.Rule.Hook
import TsxLint.Rule.InlineCall
import TsxLint.Rule.Mutation
import TsxLint.Rule.Options
import TsxLint.Rule.Ownership
import TsxLint.Rule.PropContract
import TsxLint.Rule.PropName
import TsxLint.Rule.PropType
import TsxLint.Rule.Registry
import TsxLint.Severity
import TsxLint.SourceFile
import TsxLint.Text.Affix
import TsxLint.Text.Blank
import TsxLint.Text.Case
import TsxLint.Text.CaseTable
import TsxLint.Text.Lines
import TsxLint.Text.Pattern
import TsxLint.Text.Span
import TsxLint.Text.Word
import TsxLint.Text.WordTable
import TsxLint.Toolchain.Setup
import TsxLint.Toolchain.Version
import TsxLint.Tree.Concrete
import TsxLint.Tree.Kind
import TsxLint.Tree.Node
import TsxLint.Type.Alias
import TsxLint.Type.Contract
import TsxLint.Type.Resolved
import TsxLint.Type.Shape
