import TreeQuery.JoinPlan.Assembly

/-!
# Turning `for` expressions into joins

An eligible `for` expression over several groups of bindings is replaced by one over
joined tuples.  In a whole query every `for` expression is tried, from the outside in;
one that is replaced is not looked into, and one that is not is searched for others.
-/

set_option autoImplicit false

namespace TreeQuery

open JoinPlan

/-- The expression over joined tuples that replaces a `for` expression, or why there is
none. -/
def Flwr.toJoins (flwr : Flwr) : Except Rejection Query := do
  let parents ← checkSources flwr
  let equalities ← checkCondition flwr
  checkResult flwr.result
  let grouping ← planGroups parents
  assemble flwr grouping equalities

/-- A computation that counts replacements. -/
abbrev Counting : Type → Type := StateM Nat

mutual
/-- A query with its `for` expressions replaced. -/
def Query.optimizing : Query → Counting Query
  | .reference name => return .reference name
  | .constant value => return .constant value
  | .document path => return .document path
  | .parenthesized inner => do return .parenthesized (← inner.optimizing)
  | .pair left right => do
      let left ← left.optimizing
      let right ← right.optimizing
      return .pair left right
  | .step base axis path => do return .step (← base.optimizing) axis path
  | .element name body => do return .element name (← body.optimizing)
  | .join left right leftTags rightTags => do
      let left ← left.optimizing
      let right ← right.optimizing
      return .join left right leftTags rightTags
  | .letIn bindings body => do
      let bindings ← Binding.optimizingAll bindings
      let body ← body.optimizing
      return .letIn bindings body
  | .flwr bindings lets condition result =>
      match Flwr.toJoins ⟨bindings, lets, condition, result⟩ with
      | .ok query => do
          modify (· + 1)
          return query
      | .error _ => do
          let bindings ← Binding.optimizingAll bindings
          let lets ← Binding.optimizingAll lets
          let condition ← Condition.optimizingIfPresent condition
          let result ← result.optimizing
          return .flwr bindings lets condition result

/-- A condition with its `for` expressions replaced. -/
def Condition.optimizing : Condition → Counting Condition
  | .valueEq left right => do
      let left ← left.optimizing
      let right ← right.optimizing
      return .valueEq left right
  | .identityEq left right => do
      let left ← left.optimizing
      let right ← right.optimizing
      return .identityEq left right
  | .empty query => do return .empty (← query.optimizing)
  | .someSatisfies bindings body => do
      let bindings ← Binding.optimizingAll bindings
      let body ← body.optimizing
      return .someSatisfies bindings body
  | .parenthesized inner => do return .parenthesized (← inner.optimizing)
  | .and left right => do
      let left ← left.optimizing
      let right ← right.optimizing
      return .and left right
  | .or left right => do
      let left ← left.optimizing
      let right ← right.optimizing
      return .or left right
  | .not inner => do return .not (← inner.optimizing)

/-- A condition with its `for` expressions replaced, if there is one. -/
def Condition.optimizingIfPresent : Option Condition → Counting (Option Condition)
  | none => return none
  | some condition => do return some (← condition.optimizing)

/-- Bindings with the `for` expressions of their sources replaced. -/
def Binding.optimizingAll : List Binding → Counting (List Binding)
  | [] => return []
  | ⟨name, source⟩ :: rest => do
      let source ← source.optimizing
      let rest ← Binding.optimizingAll rest
      return ⟨name, source⟩ :: rest
end

/-- A query after optimization, and how many `for` expressions were replaced. -/
structure Optimized where
  query : Query
  replaced : Nat
  deriving DecidableEq

/-- Replaces the `for` expressions of a query. -/
def Query.optimize (query : Query) : Optimized :=
  let (optimized, replaced) := query.optimizing.run 0
  ⟨optimized, replaced⟩

end TreeQuery
