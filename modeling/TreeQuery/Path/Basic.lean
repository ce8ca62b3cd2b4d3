/-!
# Paths and filters

A path says how to walk from a context node to other nodes: along one step, along two
paths one after the other, or along either of two paths.  A filter is a condition on the
node that a path has reached.  The two depend on each other, because a filter compares
the nodes that further paths reach.  A document path starts at the root of a named
document.

Parentheses are part of the trees: a printed tree keeps every pair that its text had.
-/

set_option autoImplicit false

namespace TreeQuery

/-- How two parts of a path are joined: by a step to the children, or by a step to the
children of the context nodes and of all their descendants. -/
inductive Axis where
  | child
  | descendantOrSelf
  deriving DecidableEq

/-- The sign between two parts of a path. -/
def Axis.separator : Axis → String
  | .child => "/"
  | .descendantOrSelf => "//"

mutual
/-- A walk from context nodes to other nodes. -/
inductive Path where
  | tag (name : String)
  | wildcard
  | current
  | parent
  | text
  | attribute (name : String)
  | parenthesized (inner : Path)
  | step (left : Path) (axis : Axis) (right : Path)
  | filtered (base : Path) (filter : Filter)
  | pair (left right : Path)
  deriving DecidableEq

/-- A condition on one node. -/
inductive Filter where
  | path (path : Path)
  | valueEq (left right : Path)
  | identityEq (left right : Path)
  | constantEq (path : Path) (value : String)
  | parenthesized (inner : Filter)
  | and (left right : Filter)
  | or (left right : Filter)
  | not (inner : Filter)
  deriving DecidableEq
end

/-- A path from the root of a named document. -/
structure DocumentPath where
  document : String
  axis : Axis
  path : Path
  deriving DecidableEq

/-! ## Parent steps and last tags -/

mutual
/-- Whether a step of the path, those inside its filters included, goes to a parent. -/
def Path.usesParent : Path → Bool
  | .parent => true
  | .tag _ | .wildcard | .current | .text | .attribute _ => false
  | .parenthesized inner => inner.usesParent
  | .step left _ right => left.usesParent || right.usesParent
  | .filtered base filter => base.usesParent || filter.usesParent
  | .pair left right => left.usesParent || right.usesParent

/-- Whether a path of the filter goes to a parent. -/
def Filter.usesParent : Filter → Bool
  | .path path => path.usesParent
  | .valueEq left right => left.usesParent || right.usesParent
  | .identityEq left right => left.usesParent || right.usesParent
  | .constantEq path _ => path.usesParent
  | .parenthesized inner => inner.usesParent
  | .and left right => left.usesParent || right.usesParent
  | .or left right => left.usesParent || right.usesParent
  | .not inner => inner.usesParent
end

/-- The name of the last step, if that step is a tag. -/
def Path.lastTag? : Path → Option String
  | .tag name => some name
  | .parenthesized inner => inner.lastTag?
  | .filtered base _ => base.lastTag?
  | .step _ _ right => right.lastTag?
  | .wildcard | .current | .parent | .text | .attribute _ | .pair _ _ => none

end TreeQuery
