import TreeQuery.JoinPlan.Optimization
import TreeQuery.Proofs.JoinPlan.Results
import TreeQuery.Proofs.JoinPlan.Sides
import TreeQuery.Proofs.Query.Scopes
import TreeQuery.Query.Renaming

/-!
# Levels of queries

How closely the value of an optimized query is related to that of the query itself can be
read off the query.  A `for` expression that is replaced by joins yields copies, and a query
does not tolerate copies everywhere: not below a step to a parent, not where nodes are
compared by identity, and not where it counts how often a path reaches a node, because a
path that goes on from a sequence meets every copy of a node by itself.  Comparisons by
value and tests for emptiness do not count, so below them a path may meet many copies.

`Query.level?` is the level of a query, and none if a part of it does not tolerate the copies
that it is given.  A replaced expression must moreover have roots that can be evaluated
and sides that are elements and texts (`Flwr.level?`).
-/

set_option autoImplicit false

namespace TreeQuery

open JoinPlan

/-- Whether the variable that a query is a path off is bound; a path off a document needs
none. -/
def Levels.bindRoot (levels : Levels) (query : Query) : Bool :=
  match pathOwner? query with
  | some name => (levels.lookup name).isSome
  | none => true

/-- The level of an expression that is replaced if it is eligible, from its level when it
is kept. -/
def Flwr.level? (levels : Levels) (flwr : Flwr) (kept : Level) : Option Level :=
  match flwr.toJoins with
  | .error _ => some kept
  | .ok _ =>
      if (Binding.rootSources [] flwr.bindings).all levels.bindRoot && flwr.sidesReachContent then
        some (kept.append (resultLevel (flwr.bindings.map (·.name)) flwr.result).collected)
      else none

mutual
/-- How closely the value of a query is related to its value after optimizing, if the query
tolerates the copies in it. -/
def Query.level? (levels : Levels) : Query → Option Level
  | .reference name => some ((levels.lookup name).getD .exact)
  | .constant _ | .document _ => some .exact
  | .parenthesized inner => inner.level? levels
  | .pair left right => do
      let first ← left.level? levels
      let second ← right.level? levels
      return first.append second
  | .step base _ path => do
      let context ← base.level? levels
      context.step? path
  | .element _ body => do
      let content ← body.level? levels
      if content = .gathered then none else some .exact
  | .join left right _ _ => do
      let first ← left.level? levels
      let second ← right.level? levels
      if first = .gathered ∨ second = .gathered then none else some .exact
  | .letIn bindings body => do
      let inner ← Binding.levelsApart? levels levels bindings
      body.level? inner
  | .flwr bindings lets condition result => do
      let members ← Binding.levelsOfItems? levels bindings
      let inner ← Binding.levelsInOrder? members lets
      if Condition.toleratesIfPresent inner condition then
        let each ← result.level? inner
        Flwr.level? levels ⟨bindings, lets, condition, result⟩ each.collected
      else none

/-- Whether a condition tolerates the copies in it. -/
def Condition.tolerates (levels : Levels) : Condition → Bool
  | .valueEq left right => (left.level? levels).isSome && (right.level? levels).isSome
  | .identityEq left right =>
      left.level? levels = some .exact && right.level? levels = some .exact
  | .empty query => (query.level? levels).isSome
  | .someSatisfies bindings body =>
      match Binding.levelsOfItems? levels bindings with
      | some inner => body.tolerates inner
      | none => false
  | .parenthesized inner | .not inner => inner.tolerates levels
  | .and left right | .or left right => left.tolerates levels && right.tolerates levels

/-- Whether a condition tolerates the copies in it, if there is one. -/
def Condition.toleratesIfPresent (levels : Levels) : Option Condition → Bool
  | none => true
  | some condition => condition.tolerates levels

/-- The levels behind a clause whose variables stand for single items. -/
def Binding.levelsOfItems? (levels : Levels) : List Binding → Option Levels
  | [] => some levels
  | ⟨name, source⟩ :: rest => do
      let items ← source.level? levels
      let item ← items.single?
      Binding.levelsOfItems? ((name, item) :: levels) rest

/-- The levels behind a clause whose variables stand for all items, each source seeing the
variables before it. -/
def Binding.levelsInOrder? (levels : Levels) : List Binding → Option Levels
  | [] => some levels
  | ⟨name, source⟩ :: rest => do
      let items ← source.level? levels
      Binding.levelsInOrder? ((name, items) :: levels) rest

/-- The levels behind a clause whose variables stand for all items, no source seeing the
variables of the clause. -/
def Binding.levelsApart? (outer inner : Levels) : List Binding → Option Levels
  | [] => some inner
  | ⟨name, source⟩ :: rest => do
      let items ← source.level? outer
      Binding.levelsApart? outer ((name, items) :: inner) rest
end

/-- Whether a query tolerates being optimized: no part of it minds the copies that it is
given, and the items of the whole query are alike one by one. -/
def Query.toleratesJoins (query : Query) : Bool :=
  match query.rename.level? [] with
  | some level => level ≠ .gathered
  | none => false

end TreeQuery
