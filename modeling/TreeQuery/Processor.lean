import TreeQuery.Grammar.Parse
import TreeQuery.JoinPlan.Optimization
import TreeQuery.Query.Evaluator
import TreeQuery.Query.Renaming

/-!
# Query processors

A processor answers queries given as text: it parses them, renames and optimizes them
where that is asked for, and evaluates them over the documents that names stand for.  Every
evaluation has an evaluator of its own, so no evaluation depends on those before it.

Optimizing always renames first, which keeps the names that join planning makes up apart
from those of the query.
-/

set_option autoImplicit false

namespace TreeQuery

/-- How a processor treats queries. -/
structure Treatment where
  /-- Whether queries are optimized before they are evaluated. -/
  optimizing : Bool
  /-- Whether optimizing fails on references that nothing binds. -/
  strict : Bool
  deriving DecidableEq

/-- Queries are evaluated as they are, and unbound references fail only when reached. -/
def Treatment.plain : Treatment := ⟨false, false⟩

/-- What names stand for, and the treatment of queries over it. -/
structure Processor where
  resolver : Resolver
  treatment : Treatment

/-- What an evaluation yields: a sequence of items, and the nodes that it constructed. -/
structure Outcome where
  items : List Item
  constructed : Arena

/-- The forms that a query goes through when it is optimized. -/
structure Optimization where
  renamed : Query
  optimized : Query
  replaced : Nat
  deriving DecidableEq

/-- Runs a computation on an evaluator that has not been used. -/
def Session.outcome (session : Session (List Item)) : Except Failure Outcome :=
  match session.run .new with
  | .ok items later => .ok ⟨items, later.constructed⟩
  | .error failure _ => .error failure

/-- Renames a query with the first new names. -/
def Query.renameFirst (strict : Bool) (query : Query) : Except Failure Query :=
  match (query.renaming strict).run 0 with
  | .ok renamed _ => .ok renamed
  | .error failure _ => .error failure

/-- Renames and optimizes a query. -/
def Query.prepare (strict : Bool) (query : Query) : Except Failure Optimization := do
  let renamed ← query.renameFirst strict
  let ⟨optimized, replaced⟩ := renamed.optimize
  return ⟨renamed, optimized, replaced⟩

namespace Processor

variable (processor : Processor)

/-- Evaluates the document path that a text is. -/
def evaluatePath (source : String) : Except Failure Outcome := do
  let path ← DocumentPath.parse source
  (Session.documentPath processor.resolver path).outcome

/-- Evaluates a query as it is. -/
def evaluate (query : Query) : Except Failure Outcome :=
  (Session.evaluate processor.resolver query []).outcome

/-- Renames and optimizes the query that a text is. -/
def optimize (source : String) : Except Failure Optimization := do
  let query ← Query.parse source
  query.prepare processor.treatment.strict

/-- Evaluates the query that a text is after optimizing it. -/
def evaluateOptimized (source : String) : Except Failure Outcome := do
  let optimization ← processor.optimize source
  processor.evaluate optimization.optimized

/-- Evaluates the query that a text is, in the way the processor treats queries. -/
def evaluateSource (source : String) : Except Failure Outcome :=
  if processor.treatment.optimizing then processor.evaluateOptimized source
  else do
    let query ← Query.parse source
    processor.evaluate query

end Processor

end TreeQuery
