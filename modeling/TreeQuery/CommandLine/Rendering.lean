import TreeQuery.Processor
import TreeQuery.Query.Printer
import TreeQuery.Text.Blank
import TreeQuery.Text.Json
import TreeQuery.Text.Lines

/-!
# Rendering results

The items of a result are rendered as text, laid out one after the other without a line
end after the last, or as a summary in JSON that counts them and lists each on a line of
its own without the blanks it ends in.  The forms of an optimized query are rendered
alike: the optimized query alone as text, all that is known of it in JSON.  A phase is a
title over the indented lines of a query.
-/

set_option autoImplicit false

namespace TreeQuery.CommandLine

open Text (Json)

/-- The two formats of results. -/
inductive OutputFormat where
  | text
  | json
  deriving DecidableEq

/-- How the items of a result are rendered. -/
structure Rendering where
  /-- Whether items are counted and numbered in comments, where these can stand. -/
  verbose : Bool
  /-- Whether every item is on one line. -/
  compact : Bool
  format : OutputFormat
  deriving DecidableEq

/-- The items of a result, each in compact form. -/
structure ResultSummary where
  count : Nat
  items : List String
  deriving DecidableEq

/-- The summary of a sequence of nodes. -/
def ResultSummary.ofNodes {Home : Type} (view : View Home) (nodes : List (Node Home)) :
    ResultSummary :=
  ⟨nodes.length, nodes.map fun node =>
    Text.dropTrailingBlanks (Node.serialize view ⟨false, false⟩ [node])⟩

/-- A summary in JSON. -/
def ResultSummary.render (summary : ResultSummary) : String :=
  (Json.object [("count", .number summary.count),
    ("items", .array (summary.items.map .text))]).pretty

/-- A text without the line end after its last line, and with every other line end as a
line feed alone. -/
def joinLines (text : String) : String :=
  "\n".intercalate (Text.lines text)

/-- Renders a sequence of nodes. -/
def Rendering.render {Home : Type} (rendering : Rendering) (view : View Home)
    (nodes : List (Node Home)) : String :=
  match rendering.format with
  | .text => joinLines (Node.serialize view ⟨rendering.verbose, !rendering.compact⟩ nodes)
  | .json => (ResultSummary.ofNodes view nodes).render

/-- The forms of a query that is optimized, in JSON. -/
def renderOptimization (optimization : Optimization) : String :=
  (Json.object [("renamed", .text optimization.renamed.pretty),
    ("optimized", .text optimization.optimized.pretty),
    ("rewritten", .number optimization.replaced)]).pretty

/-- A phase: its title, and the text that it ends with, indented below. -/
def renderPhase (title body : String) : String :=
  title ++ "\n" ++ Text.indent body

/-- The phase of renaming. -/
def renamingPhase (optimization : Optimization) : String :=
  renderPhase "Phase 1 - Variable Renamer" optimization.renamed.pretty

/-- The phase of optimizing. -/
def optimizingPhase (optimization : Optimization) : String :=
  renderPhase "Phase 2 - Optimizer" optimization.optimized.pretty

end TreeQuery.CommandLine
