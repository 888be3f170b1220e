import ColumnFlow.Catalog
import ColumnFlow.Catalog.File
import ColumnFlow.Command.Flag
import ColumnFlow.Command.Init
import ColumnFlow.Command.Line
import ColumnFlow.Command.Run
import ColumnFlow.Command.Template
import ColumnFlow.Command.Usage
import ColumnFlow.Command.ValueList
import ColumnFlow.Grammar.Control
import ColumnFlow.Grammar.Define
import ColumnFlow.Grammar.Expression
import ColumnFlow.Grammar.Modify
import ColumnFlow.Grammar.Name
import ColumnFlow.Grammar.Open
import ColumnFlow.Grammar.Recovery
import ColumnFlow.Grammar.Script
import ColumnFlow.Grammar.Select
import ColumnFlow.Grammar.State
import ColumnFlow.Grammar.Table
import ColumnFlow.Graph.Basic
import ColumnFlow.Graph.Build
import ColumnFlow.Graph.Reach
import ColumnFlow.Json.Value
import ColumnFlow.Lineage.Column
import ColumnFlow.Lineage.Dynamic
import ColumnFlow.Lineage.Edge
import ColumnFlow.Lineage.Extract
import ColumnFlow.Lineage.Parallel
import ColumnFlow.Lineage.Query
import ColumnFlow.Lineage.Record
import ColumnFlow.Lineage.Result
import ColumnFlow.Lineage.Risk
import ColumnFlow.Lineage.Scope
import ColumnFlow.Lineage.Source
import ColumnFlow.Lineage.Statement
import ColumnFlow.Lineage.Trace
import ColumnFlow.Lineage.Write
import ColumnFlow.Main
import ColumnFlow.Number.Double
import ColumnFlow.Number.Shortest
import ColumnFlow.Project.DefinitionFile
import ColumnFlow.Project.Discovery
import ColumnFlow.Project.FileTree
import ColumnFlow.Project.FrontMatter
import ColumnFlow.Project.Glob
import ColumnFlow.Project.Path
import ColumnFlow.Project.Watch
import ColumnFlow.Proofs.Bare
import ColumnFlow.Proofs.BatchComposition
import ColumnFlow.Proofs.BatchIsolation
import ColumnFlow.Proofs.Builds
import ColumnFlow.Proofs.BuildsQueries
import ColumnFlow.Proofs.BuildsStatements
import ColumnFlow.Proofs.CaseInsensitivity
import ColumnFlow.Proofs.CaselessColumns
import ColumnFlow.Proofs.CaselessQueries
import ColumnFlow.Proofs.CaselessScope
import ColumnFlow.Proofs.CaselessStatements
import ColumnFlow.Proofs.CaselessSyntax
import ColumnFlow.Proofs.CatalogLookup
import ColumnFlow.Proofs.Complete
import ColumnFlow.Proofs.CompleteScripts
import ColumnFlow.Proofs.Constructs
import ColumnFlow.Proofs.ControlFlow
import ColumnFlow.Proofs.CycleDetection
import ColumnFlow.Proofs.DefinedColumns
import ColumnFlow.Proofs.DefinitionOrder
import ColumnFlow.Proofs.DiscoveredFiles
import ColumnFlow.Proofs.DistinctSources
import ColumnFlow.Proofs.DynamicCoverage
import ColumnFlow.Proofs.EdgeForm
import ColumnFlow.Proofs.ExpressionColumns
import ColumnFlow.Proofs.ExpressionRoundTrip
import ColumnFlow.Proofs.FindingPlaces
import ColumnFlow.Proofs.FoldedNames
import ColumnFlow.Proofs.FrontMatterComment
import ColumnFlow.Proofs.GraphColumns
import ColumnFlow.Proofs.GraphInvariant
import ColumnFlow.Proofs.Holes
import ColumnFlow.Proofs.InsertCoverage
import ColumnFlow.Proofs.InsertPairing
import ColumnFlow.Proofs.JoinOrder
import ColumnFlow.Proofs.LetterCase
import ColumnFlow.Proofs.LexAppend
import ColumnFlow.Proofs.LineBreaks
import ColumnFlow.Proofs.ListProgress
import ColumnFlow.Proofs.LocalTables
import ColumnFlow.Proofs.Lockstep
import ColumnFlow.Proofs.LockstepControl
import ColumnFlow.Proofs.LockstepDefine
import ColumnFlow.Proofs.LockstepExpressions
import ColumnFlow.Proofs.LockstepModify
import ColumnFlow.Proofs.LockstepNames
import ColumnFlow.Proofs.LockstepQueries
import ColumnFlow.Proofs.LockstepRules
import ColumnFlow.Proofs.LockstepScript
import ColumnFlow.Proofs.LockstepTables
import ColumnFlow.Proofs.NameRoundTrip
import ColumnFlow.Proofs.NodeStarts
import ColumnFlow.Proofs.OneRun
import ColumnFlow.Proofs.ParallelExtraction
import ColumnFlow.Proofs.PrecedenceParsing
import ColumnFlow.Proofs.PrintedExpressions
import ColumnFlow.Proofs.ProjectedNames
import ColumnFlow.Proofs.QueryEvents
import ColumnFlow.Proofs.QuerySources
import ColumnFlow.Proofs.QuotedTokens
import ColumnFlow.Proofs.Reachability
import ColumnFlow.Proofs.ReportVerdicts
import ColumnFlow.Proofs.SchemaQualifiers
import ColumnFlow.Proofs.ScopeSources
import ColumnFlow.Proofs.SetOperations
import ColumnFlow.Proofs.SourceKeys
import ColumnFlow.Proofs.SpanNesting
import ColumnFlow.Proofs.SpanTrees
import ColumnFlow.Proofs.StatementEdges
import ColumnFlow.Proofs.StatementNumbers
import ColumnFlow.Proofs.StatementPlaces
import ColumnFlow.Proofs.StatementResults
import ColumnFlow.Proofs.StatementRounds
import ColumnFlow.Proofs.TableCatalog
import ColumnFlow.Proofs.TableNames
import ColumnFlow.Proofs.TokenPositions
import ColumnFlow.Proofs.TokenTiling
import ColumnFlow.Proofs.Traced
import ColumnFlow.Proofs.WriteReadNodes
import ColumnFlow.Proofs.WriteSources
import ColumnFlow.Report.Basic
import ColumnFlow.Report.Health
import ColumnFlow.Report.Mode
import ColumnFlow.Report.Patterns
import ColumnFlow.Report.Render
import ColumnFlow.Report.Table
import ColumnFlow.Report.Trace
import ColumnFlow.Settings.Basic
import ColumnFlow.Settings.Duration
import ColumnFlow.Settings.Layer
import ColumnFlow.Settings.Load
import ColumnFlow.Settings.LogLevel
import ColumnFlow.Syntax.Basic
import ColumnFlow.Syntax.Query
import ColumnFlow.Syntax.Statement
import ColumnFlow.Syntax.Walk
import ColumnFlow.Text.Blank
import ColumnFlow.Text.Case
import ColumnFlow.Text.CaseTable
import ColumnFlow.Text.Cluster
import ColumnFlow.Text.ClusterTable
import ColumnFlow.Text.CodeRanges
import ColumnFlow.Text.Number
import ColumnFlow.Text.Position
import ColumnFlow.Text.Printable
import ColumnFlow.Text.Quoted
import ColumnFlow.Text.Sorted
import ColumnFlow.Text.Terminal
import ColumnFlow.Text.Width
import ColumnFlow.Text.WidthTable
import ColumnFlow.Token.Basic
import ColumnFlow.Token.Kind
import ColumnFlow.Token.Lexer
import ColumnFlow.Token.Piece
import ColumnFlow.Yaml.Cursor
import ColumnFlow.Yaml.Decode
import ColumnFlow.Yaml.Node
import ColumnFlow.Yaml.Reader
import ColumnFlow.Yaml.Scalar
import ColumnFlow.Yaml.Token
import ColumnFlow.Yaml.Value
