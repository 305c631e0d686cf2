import ActionAtlas.Analysis
import ActionAtlas.Analysis.Folder
import ActionAtlas.Classification
import ActionAtlas.Command.Arguments
import ActionAtlas.Command.Failure
import ActionAtlas.Command.Line
import ActionAtlas.Command.Run
import ActionAtlas.Command.Status
import ActionAtlas.Decimal.Shortest
import ActionAtlas.Declarations
import ActionAtlas.Discovery
import ActionAtlas.Entry
import ActionAtlas.Entry.Json
import ActionAtlas.Files.Basic
import ActionAtlas.Files.Path
import ActionAtlas.Files.Sources
import ActionAtlas.Graph.ActionTree
import ActionAtlas.Graph.Basic
import ActionAtlas.Graph.Build
import ActionAtlas.Graph.DisplayMode
import ActionAtlas.Graph.Json
import ActionAtlas.Graph.Presentation
import ActionAtlas.Graph.Projection
import ActionAtlas.Graph.Statistics
import ActionAtlas.Graph.Store
import ActionAtlas.Graph.Visibility
import ActionAtlas.Json.Printer
import ActionAtlas.Json.Reading
import ActionAtlas.Json.Scanned
import ActionAtlas.Json.Value
import ActionAtlas.Main
import ActionAtlas.Options.Basic
import ActionAtlas.Options.Environment
import ActionAtlas.Options.Loading
import ActionAtlas.Options.PathFilters
import ActionAtlas.Pattern.Basic
import ActionAtlas.Pattern.CharSet
import ActionAtlas.Pattern.Encoding
import ActionAtlas.Pattern.Program
import ActionAtlas.Pattern.Reading
import ActionAtlas.Pattern.Search
import ActionAtlas.Pattern.Size
import ActionAtlas.Proofs.ActionPaths
import ActionAtlas.Proofs.ActionTree
import ActionAtlas.Proofs.AnalysisText
import ActionAtlas.Proofs.Ancestry
import ActionAtlas.Proofs.Attribution
import ActionAtlas.Proofs.ClassReferences
import ActionAtlas.Proofs.Climbing
import ActionAtlas.Proofs.Contraction
import ActionAtlas.Proofs.EntryOrder
import ActionAtlas.Proofs.EntryParts
import ActionAtlas.Proofs.ExportedRoles
import ActionAtlas.Proofs.FileOrder
import ActionAtlas.Proofs.FileTrees
import ActionAtlas.Proofs.FirstFields
import ActionAtlas.Proofs.Firsts
import ActionAtlas.Proofs.FlagHistory
import ActionAtlas.Proofs.GraphBuild
import ActionAtlas.Proofs.GraphText
import ActionAtlas.Proofs.Identity
import ActionAtlas.Proofs.JsonReading
import ActionAtlas.Proofs.JsonText
import ActionAtlas.Proofs.JsonTokens
import ActionAtlas.Proofs.LayeredOptions
import ActionAtlas.Proofs.Layers
import ActionAtlas.Proofs.LineNumbers
import ActionAtlas.Proofs.NamedEntries
import ActionAtlas.Proofs.Nesting
import ActionAtlas.Proofs.PathQueries
import ActionAtlas.Proofs.PreOrder
import ActionAtlas.Proofs.PresentedPart
import ActionAtlas.Proofs.Projection
import ActionAtlas.Proofs.ReducerNames
import ActionAtlas.Proofs.Roles
import ActionAtlas.Proofs.Settings
import ActionAtlas.Proofs.Snapshots
import ActionAtlas.Proofs.SourceListing
import ActionAtlas.Proofs.SplitReducers
import ActionAtlas.Proofs.StoreRuns
import ActionAtlas.Proofs.StoreView
import ActionAtlas.Proofs.TreeHistory
import ActionAtlas.Proofs.TreeLinks
import ActionAtlas.Proofs.TreeNests
import ActionAtlas.Proofs.TreeSteps
import ActionAtlas.Proofs.ViewStatistics
import ActionAtlas.Proofs.Visibility
import ActionAtlas.Syntax.Builder
import ActionAtlas.Syntax.Kind
import ActionAtlas.Syntax.LineIndex
import ActionAtlas.Syntax.Query
import ActionAtlas.Syntax.Tree
import ActionAtlas.Text.Affix
import ActionAtlas.Text.Blank
import ActionAtlas.Text.CaseFold
import ActionAtlas.Text.Category
import ActionAtlas.Text.Quoted
import ActionAtlas.Text.Reader
import ActionAtlas.Text.Script
import ActionAtlas.Text.Segments
import ActionAtlas.Toml.Document
import ActionAtlas.Toml.Scalar
import ActionAtlas.Toml.Table
import ActionAtlas.TypeScript.Character
import ActionAtlas.TypeScript.Classes
import ActionAtlas.TypeScript.Expressions
import ActionAtlas.TypeScript.Form
import ActionAtlas.TypeScript.Functions
import ActionAtlas.TypeScript.Markup
import ActionAtlas.TypeScript.Parse
import ActionAtlas.TypeScript.Parts
import ActionAtlas.TypeScript.Program
import ActionAtlas.TypeScript.Statements
import ActionAtlas.TypeScript.Token
import ActionAtlas.TypeScript.Token.Scan
import ActionAtlas.TypeScript.Types
import ActionAtlas.Usage
import ActionAtlas.Proofs.PathTails
