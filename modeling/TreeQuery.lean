import TreeQuery.CommandLine.Arguments
import TreeQuery.CommandLine.Command
import TreeQuery.CommandLine.Rendering
import TreeQuery.CommandLine.Switch
import TreeQuery.CommandLine.Transcript
import TreeQuery.Document.Arena
import TreeQuery.Document.Collection
import TreeQuery.Document.Files
import TreeQuery.Document.Folder
import TreeQuery.Document.Fragment
import TreeQuery.Document.Library
import TreeQuery.Document.Node
import TreeQuery.Document.Serialization
import TreeQuery.Failure
import TreeQuery.Grammar.Building
import TreeQuery.Grammar.Expectation
import TreeQuery.Grammar.Parse
import TreeQuery.Grammar.Parser
import TreeQuery.Grammar.PathRules
import TreeQuery.Grammar.QueryRules
import TreeQuery.Grammar.Rule
import TreeQuery.Grammar.Token
import TreeQuery.Grammar.Trees
import TreeQuery.JoinPlan.Assembly
import TreeQuery.JoinPlan.Eligibility
import TreeQuery.JoinPlan.Grouping
import TreeQuery.JoinPlan.Names
import TreeQuery.JoinPlan.Optimization
import TreeQuery.JoinPlan.Rejection
import TreeQuery.Main
import TreeQuery.Markup.Character
import TreeQuery.Markup.Document
import TreeQuery.Markup.Fault
import TreeQuery.Markup.Reader
import TreeQuery.Path.Basic
import TreeQuery.Path.Printer
import TreeQuery.Path.Selection
import TreeQuery.Processor
import TreeQuery.Proofs.CommandLine.Rendering
import TreeQuery.Proofs.Document.Copies
import TreeQuery.Proofs.Document.Forest
import TreeQuery.Proofs.Document.Growth
import TreeQuery.Proofs.Document.Indented
import TreeQuery.Proofs.Document.Loading
import TreeQuery.Proofs.Document.Merging
import TreeQuery.Proofs.Document.Numbering
import TreeQuery.Proofs.Document.Reading
import TreeQuery.Proofs.Document.Records
import TreeQuery.Proofs.Document.Reloading
import TreeQuery.Proofs.Document.Spelling
import TreeQuery.Proofs.Document.Traversal
import TreeQuery.Proofs.Document.WellFormed
import TreeQuery.Proofs.Document.Written
import TreeQuery.Proofs.Grammar.Agreement
import TreeQuery.Proofs.Grammar.BuiltPaths
import TreeQuery.Proofs.Grammar.BuiltQueries
import TreeQuery.Proofs.Grammar.BuiltTokens
import TreeQuery.Proofs.Grammar.Image
import TreeQuery.Proofs.Grammar.Layout
import TreeQuery.Proofs.Grammar.Levels
import TreeQuery.Proofs.Grammar.PathQueries
import TreeQuery.Proofs.Grammar.Paths
import TreeQuery.Proofs.Grammar.Primaries
import TreeQuery.Proofs.Grammar.Queries
import TreeQuery.Proofs.Grammar.Reading
import TreeQuery.Proofs.Grammar.Results
import TreeQuery.Proofs.Grammar.Stages
import TreeQuery.Proofs.Grammar.Steps
import TreeQuery.Proofs.Grammar.Texts
import TreeQuery.Proofs.Grammar.Tokens
import TreeQuery.Proofs.Grammar.Whole
import TreeQuery.Proofs.JoinPlan.Chain
import TreeQuery.Proofs.JoinPlan.Closed
import TreeQuery.Proofs.JoinPlan.Congruence
import TreeQuery.Proofs.JoinPlan.CopiedBindings
import TreeQuery.Proofs.JoinPlan.Eligibility
import TreeQuery.Proofs.JoinPlan.Failures
import TreeQuery.Proofs.JoinPlan.Grouping
import TreeQuery.Proofs.JoinPlan.Groups
import TreeQuery.Proofs.JoinPlan.KeyFields
import TreeQuery.Proofs.JoinPlan.Keys
import TreeQuery.Proofs.JoinPlan.Levels
import TreeQuery.Proofs.JoinPlan.Partition
import TreeQuery.Proofs.JoinPlan.Plan
import TreeQuery.Proofs.JoinPlan.Printable
import TreeQuery.Proofs.JoinPlan.Printing
import TreeQuery.Proofs.JoinPlan.Projection
import TreeQuery.Proofs.JoinPlan.Rejections
import TreeQuery.Proofs.JoinPlan.Replacement
import TreeQuery.Proofs.JoinPlan.Results
import TreeQuery.Proofs.JoinPlan.Settled
import TreeQuery.Proofs.JoinPlan.Shape
import TreeQuery.Proofs.JoinPlan.Sides
import TreeQuery.Proofs.JoinPlan.Soundness
import TreeQuery.Proofs.JoinPlan.Splitting
import TreeQuery.Proofs.JoinPlan.Stability
import TreeQuery.Proofs.JoinPlan.Titles
import TreeQuery.Proofs.JoinPlan.Tuples
import TreeQuery.Proofs.Lists
import TreeQuery.Proofs.Markup.Contracts
import TreeQuery.Proofs.Markup.Indentation
import TreeQuery.Proofs.Markup.Items
import TreeQuery.Proofs.Markup.Replay
import TreeQuery.Proofs.Markup.Rereading
import TreeQuery.Proofs.Markup.Runs
import TreeQuery.Proofs.Markup.Soundness
import TreeQuery.Proofs.Markup.Tags
import TreeQuery.Proofs.Node.Alike
import TreeQuery.Proofs.Node.Copying
import TreeQuery.Proofs.Node.Depth
import TreeQuery.Proofs.Node.Matching
import TreeQuery.Proofs.Node.Order
import TreeQuery.Proofs.Node.ValueKeys
import TreeQuery.Proofs.Path.CommaFilters
import TreeQuery.Proofs.Path.Descent
import TreeQuery.Proofs.Path.Locality
import TreeQuery.Proofs.Path.Order
import TreeQuery.Proofs.Path.Parentheses
import TreeQuery.Proofs.Path.Regrouping
import TreeQuery.Proofs.Path.Selection
import TreeQuery.Proofs.Path.Tokens
import TreeQuery.Proofs.Processor
import TreeQuery.Proofs.Query.Agreement
import TreeQuery.Proofs.Query.AlphaEquivalence
import TreeQuery.Proofs.Query.Calls
import TreeQuery.Proofs.Query.CommaFilters
import TreeQuery.Proofs.Query.Composition
import TreeQuery.Proofs.Query.Construction
import TreeQuery.Proofs.Query.Correspondence
import TreeQuery.Proofs.Query.Documents
import TreeQuery.Proofs.Query.Evaluation
import TreeQuery.Proofs.Query.Evaluator
import TreeQuery.Proofs.Query.Existentials
import TreeQuery.Proofs.Query.Failures
import TreeQuery.Proofs.Query.Fixpoint
import TreeQuery.Proofs.Query.FreeNames
import TreeQuery.Proofs.Query.FreshNames
import TreeQuery.Proofs.Query.Join
import TreeQuery.Proofs.Query.Layouts
import TreeQuery.Proofs.Query.Lines
import TreeQuery.Proofs.Query.NormalForm
import TreeQuery.Proofs.Query.Outcomes
import TreeQuery.Proofs.Query.Parentheses
import TreeQuery.Proofs.Query.PrintableRenaming
import TreeQuery.Proofs.Query.Regrouping
import TreeQuery.Proofs.Query.Renaming
import TreeQuery.Proofs.Query.Reuse
import TreeQuery.Proofs.Query.RoundTrip
import TreeQuery.Proofs.Query.ScopeCheck
import TreeQuery.Proofs.Query.Scopes
import TreeQuery.Proofs.Query.Shelves
import TreeQuery.Proofs.Query.StrictRenaming
import TreeQuery.Proofs.Query.TitledForms
import TreeQuery.Proofs.Query.Titles
import TreeQuery.Proofs.Query.Tokens
import TreeQuery.Proofs.Query.Twins
import TreeQuery.Proofs.Query.Walks
import TreeQuery.Proofs.Query.Worlds
import TreeQuery.Proofs.Query.Yields
import TreeQuery.Proofs.Text.Json
import TreeQuery.Proofs.Text.Lines
import TreeQuery.Query.Basic
import TreeQuery.Query.Documents
import TreeQuery.Query.Evaluation
import TreeQuery.Query.Evaluator
import TreeQuery.Query.Join
import TreeQuery.Query.Printer
import TreeQuery.Query.Renaming
import TreeQuery.Text.Blank
import TreeQuery.Text.CodeRange
import TreeQuery.Text.Escape
import TreeQuery.Text.Extending
import TreeQuery.Text.Json
import TreeQuery.Text.Lines
import TreeQuery.Text.Number
import TreeQuery.Text.Position
import TreeQuery.Text.Quoted
import TreeQuery.Text.Unprinted
