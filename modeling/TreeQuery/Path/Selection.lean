import TreeQuery.Document.Node
import TreeQuery.Path.Basic

/-!
# Selecting nodes by paths

`Path.select` walks a path from a list of context nodes.  Single steps visit the context
nodes one after the other and keep every node they reach; where two parts of a path
meet, and where a path continues a context, repeated nodes are dropped and each stands
where it was reached first.  A descendant step first replaces the context by all its
nodes and their descendants.

A filter looks at one node at a time.  Comparisons hold if some node on the left agrees
with some node on the right: the same node, a node of equal content, or a node whose
string value is a given text.
-/

set_option autoImplicit false

namespace TreeQuery

variable {Home : Type} [DecidableEq Home]

/-- The context nodes from which a step along an axis is taken. -/
def Axis.expand (view : View Home) (context : List (Node Home)) : Axis → List (Node Home)
  | .child => context
  | .descendantOrSelf => (context.flatMap (·.descendantsOrSelf view)).eraseDups

/-- Whether some node on the left is equal by value to some node on the right. -/
def anyValueEq (view : View Home) (left right : List (Node Home)) : Bool :=
  let keys := right.map (·.valueKey view)
  left.any fun node => keys.contains (node.valueKey view)

/-- Whether some node on the left is some node on the right. -/
def anyIdentical (left right : List (Node Home)) : Bool :=
  left.any right.contains

/-- Whether some node has a given string value. -/
def anyStringValue (view : View Home) (nodes : List (Node Home)) (value : String) : Bool :=
  nodes.any fun node => node.stringValue view = value

mutual
/-- The nodes that a path reaches from the context nodes, in the order of the walk. -/
def Path.select (view : View Home) : Path → List (Node Home) → List (Node Home)
  | .tag name, context =>
      (context.flatMap (·.children view)).filter (·.isElementNamed view name)
  | .wildcard, context => context.flatMap (·.children view)
  | .current, context => context
  | .parent, context => (context.filterMap (·.parent? view)).eraseDups
  | .text, context => (context.flatMap (·.children view)).filter fun node => node.kind view = .text
  | .attribute name, context => context.filterMap (·.attribute? view name)
  | .parenthesized inner, context => inner.select view context
  | .step left axis right, context =>
      (right.select view (axis.expand view (left.select view context))).eraseDups
  | .filtered base filter, context => (base.select view context).filter (filter.holds view)
  | .pair left right, context => left.select view context ++ right.select view context

/-- Whether a filter holds of a node. -/
def Filter.holds (view : View Home) : Filter → Node Home → Bool
  | .path path, node => !(path.select view [node]).isEmpty
  | .valueEq left right, node =>
      anyValueEq view (left.select view [node]) (right.select view [node])
  | .identityEq left right, node =>
      anyIdentical (left.select view [node]) (right.select view [node])
  | .constantEq path value, node => anyStringValue view (path.select view [node]) value
  | .parenthesized inner, node => inner.holds view node
  | .and left right, node => left.holds view node && right.holds view node
  | .or left right, node => left.holds view node || right.holds view node
  | .not inner, node => !inner.holds view node
end

/-- The nodes that a path reaches along an axis from a context, each once. -/
def Path.selectAlong (view : View Home) (axis : Axis) (context : List (Node Home)) (path : Path) :
    List (Node Home) :=
  (path.select view (axis.expand view context)).eraseDups

/-- Two parts of a path meet as a path meets its context. -/
theorem Path.select_step (view : View Home) (left right : Path) (axis : Axis)
    (context : List (Node Home)) :
    (Path.step left axis right).select view context =
      right.selectAlong view axis (left.select view context) := by
  rw [Path.select, Path.selectAlong]

end TreeQuery
