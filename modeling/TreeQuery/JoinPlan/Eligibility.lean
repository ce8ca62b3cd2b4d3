import TreeQuery.JoinPlan.Rejection
import TreeQuery.Query.Basic

/-!
# Eligibility

What a `for` expression must look like to be turned into joins.

* Every source is a path off a document or off a variable, and ends in steps that reach
  elements and texts only: those can be copied into a field and taken out again.
* The condition is a conjunction of value equalities between constants and paths off the
  variables of the expression.
* The result is built from variables by constructors, sequences and steps that never
  leave a copy: no parent steps, and no steps off a sequence, in which the copies of one
  node would count as different nodes.

The checks also say what the later phases need: which earlier binding each source is a
path off, and the equalities of the condition.
-/

set_option autoImplicit false

namespace TreeQuery.JoinPlan

/-! ## Sources -/

/-- Whether the last steps of a path reach elements and texts only. -/
def reachesContent : Path → Bool
  | .tag _ | .wildcard | .text => true
  | .current | .parent | .attribute _ => false
  | .parenthesized inner => reachesContent inner
  | .step _ _ right => reachesContent right
  | .filtered base _ => reachesContent base
  | .pair left right => reachesContent left && reachesContent right

/-- The earlier binding that a source is a path off; a document or an outer variable is
none of them. -/
def sourceParent (earlier : List Binding) (source : Query) : Except Rejection (Option Nat) :=
  match source with
  | .document path => if reachesContent path.path then .ok none else .error .sourceEnd
  | .step (.reference name) _ path =>
      if reachesContent path then .ok (earlier.findIdx? (·.name == name)) else .error .sourceEnd
  | .step _ _ _ => .error .sourceOffExpression
  | _ => .error .unsupportedSource

/-- The earlier bindings that the sources of bindings are paths off. -/
def sourceParents (earlier : List Binding) : List Binding → Except Rejection (List (Option Nat))
  | [] => .ok []
  | binding :: rest => do
      if earlier.any (·.name == binding.name) then throw .boundTwice
      let parent ← sourceParent earlier binding.source
      let parents ← sourceParents (earlier ++ [binding]) rest
      return parent :: parents

/-- The earlier bindings that the sources of an expression are paths off. -/
def checkSources (flwr : Flwr) : Except Rejection (List (Option Nat)) :=
  if flwr.lets.isEmpty then sourceParents [] flwr.bindings else .error .letClause

/-! ## Conditions -/

/-- A side of an equality: a constant, or a path off the variable of a binding. -/
inductive Operand where
  | constant (value : String)
  | path (owner : Nat) (query : Query)
  deriving DecidableEq

/-- A value equality of a condition, with its sides. -/
structure Equality where
  left : Operand
  right : Operand
  source : Condition
  deriving DecidableEq

/-- The variable that a query is a path off. -/
def pathOwner? : Query → Option String
  | .reference name => some name
  | .step base _ _ => pathOwner? base
  | .parenthesized inner => pathOwner? inner
  | _ => none

/-- A query as a side of an equality. -/
def operand? (bindings : List Binding) (query : Query) : Option Operand :=
  match query.unparenthesized with
  | .constant value => some (.constant value)
  | query => do
      let name ← pathOwner? query
      let owner ← bindings.findIdx? (·.name == name)
      return .path owner query

/-- The equalities of a conjunction, in order. -/
def equalitiesOf (bindings : List Binding) : Condition → Except Rejection (List Equality)
  | .and left right => do
      let equalities ← equalitiesOf bindings left
      let others ← equalitiesOf bindings right
      return equalities ++ others
  | .parenthesized inner => equalitiesOf bindings inner
  | .valueEq left right =>
      match operand? bindings left, operand? bindings right with
      | some leftOperand, some rightOperand =>
          .ok [⟨leftOperand, rightOperand, .valueEq left right⟩]
      | _, _ => .error .unsupportedOperand
  | _ => .error .unsupportedCondition

/-- The equalities of an expression's condition, in order. -/
def checkCondition (flwr : Flwr) : Except Rejection (List Equality) :=
  match flwr.condition with
  | none => .ok []
  | some condition => equalitiesOf flwr.bindings condition

/-! ## Results -/

/-- Whether a step may follow a query without meeting copies of one node. -/
def allowsStep : Query → Bool
  | .reference _ | .step _ _ _ | .element _ _ => true
  | .parenthesized inner => allowsStep inner
  | _ => false

/-- Checks that a result can be computed from copies. -/
def checkResult : Query → Except Rejection Unit
  | .reference _ => .ok ()
  | .parenthesized inner => checkResult inner
  | .element _ body => checkResult body
  | .pair left right => do
      checkResult left
      checkResult right
  | .step base _ path =>
      if path.usesParent then .error .returnToParent
      else if !allowsStep base then .error .returnOffSequence
      else checkResult base
  | _ => .error .unsupportedReturn

/-! ## Attributes -/

/-- Whether the last steps of a path can reach attributes. -/
def reachesAttributes : Path → Bool
  | .attribute _ => true
  | .parenthesized inner => reachesAttributes inner
  | .step _ _ right => reachesAttributes right
  | .filtered base _ => reachesAttributes base
  | .pair left right => reachesAttributes left || reachesAttributes right
  | _ => false

/-- Whether a query that is a path off a variable can reach attributes. -/
def yieldsAttributes : Query → Bool
  | .step _ _ path => reachesAttributes path
  | .parenthesized inner => yieldsAttributes inner
  | _ => false

end TreeQuery.JoinPlan
