import TreeQuery.JoinPlan.Eligibility

/-!
# Groups of bindings

A binding whose source is a path off an earlier variable belongs to the group of that
variable's binding; every other binding opens a group of its own.  Groups are numbered in
the order in which they are opened.  Bindings of different groups do not depend on each
other, so groups can be evaluated apart and joined.

The equalities of the condition are sorted by the groups they speak of: none, one, or
two.
-/

set_option autoImplicit false

namespace TreeQuery.JoinPlan

/-! ## Groups -/

/-- The group of every binding, and the number of groups. -/
structure Grouping where
  groupOf : List Nat
  count : Nat
  deriving DecidableEq

namespace Grouping

/-- The group of a binding. -/
def group (grouping : Grouping) (binding : Nat) : Nat := grouping.groupOf.getD binding 0

/-- Adds a binding, given the earlier binding that its source is a path off. -/
def add (grouping : Grouping) (parent : Option Nat) : Grouping :=
  match parent with
  | none => ⟨grouping.groupOf ++ [grouping.count], grouping.count + 1⟩
  | some parent => ⟨grouping.groupOf ++ [grouping.group parent], grouping.count⟩

/-- The groups of bindings, given the earlier bindings that their sources are paths off. -/
def ofParents (parents : List (Option Nat)) : Grouping :=
  parents.foldl add ⟨[], 0⟩

/-- The bindings of a group, in order. -/
def members (grouping : Grouping) (group : Nat) : List Nat :=
  (List.range grouping.groupOf.length).filter fun binding => grouping.group binding = group

/-- Whether no group is interrupted by another. -/
def isContiguous (grouping : Grouping) : Bool :=
  (grouping.groupOf.zip grouping.groupOf.tail).all fun (group, next) => group ≤ next

end Grouping

/-- The groups of bindings if there are several and none is interrupted. -/
def planGroups (parents : List (Option Nat)) : Except Rejection Grouping :=
  let grouping := Grouping.ofParents parents
  if grouping.count < 2 then .error .singleGroup
  else if !grouping.isContiguous then .error .interleavedGroups
  else .ok grouping

/-! ## Equalities -/

/-- A side of an equality between groups. -/
structure Endpoint where
  group : Nat
  query : Query
  deriving DecidableEq

/-- An equality between two groups. -/
structure CrossEquality where
  left : Endpoint
  right : Endpoint
  source : Condition
  deriving DecidableEq

/-- The side in an earlier group and the side in a given group, if the equality links
the two. -/
def CrossEquality.orient (equality : CrossEquality) (group : Nat) :
    Option (Endpoint × Endpoint) :=
  if equality.right.group = group ∧ equality.left.group < group then
    some (equality.left, equality.right)
  else if equality.left.group = group ∧ equality.right.group < group then
    some (equality.right, equality.left)
  else none

/-- What an equality speaks of: constants only, one group and a constant, one group on
both sides, or two groups. -/
inductive Reach where
  | nothing
  | restriction (group : Nat)
  | inside (group : Nat)
  | across (left right : Endpoint)
  deriving DecidableEq

/-- What an equality speaks of. -/
def Equality.reach (grouping : Grouping) (equality : Equality) : Reach :=
  match equality.left, equality.right with
  | .constant _, .constant _ => .nothing
  | .path owner _, .constant _ | .constant _, .path owner _ => .restriction (grouping.group owner)
  | .path owner left, .path other right =>
      let group := grouping.group owner
      let otherGroup := grouping.group other
      if group = otherGroup then .inside group else .across ⟨group, left⟩ ⟨otherGroup, right⟩

/-- The conditions of the equalities with a given reach, in order. -/
def sourcesOf (grouping : Grouping) (equalities : List Equality) (reach : Reach) :
    List Condition :=
  (equalities.filter (·.reach grouping = reach)).map (·.source)

/-- The conditions under which the tuples of a group are taken: those that speak of no
group, those that compare the group with constants, and those within the group. -/
def groupConditions (grouping : Grouping) (equalities : List Equality) (group : Nat) :
    List Condition :=
  sourcesOf grouping equalities .nothing ++ sourcesOf grouping equalities (.restriction group) ++
    sourcesOf grouping equalities (.inside group)

/-- The equalities between two groups, in order. -/
def crossEqualities (grouping : Grouping) (equalities : List Equality) : List CrossEquality :=
  equalities.filterMap fun equality =>
    match equality.reach grouping with
    | .across left right => some ⟨left, right, equality.source⟩
    | _ => none

end TreeQuery.JoinPlan
