import TreeQuery.JoinPlan.Grouping
import TreeQuery.JoinPlan.Names

/-!
# Assembling the joins

Each group becomes a query that returns one tuple for every combination of its items: an
element with a field for every variable and a field for every path that an equality with
another group compares.  The queries are joined from the left in the order of the
groups, and an expression over the joined tuples computes the result, every variable
being read from its field.

An equality between groups becomes a pair of tags of the join that adds the later of the
two groups.  A variable's own field is its key; a path's key field is named after the
last tag of the path, and paths that are the same share a field.
-/

set_option autoImplicit false

namespace TreeQuery.JoinPlan

/-- The tag of tuples, and the name from which that of the tuple variable is made. -/
def tupleName : String := "tuple"

/-- The name from which that of a key field is made if no tag suggests one. -/
def keyName : String := "key"

/-! ## Keys -/

/-- A key field of a group: the path it holds and its tag. -/
structure KeyField where
  group : Nat
  query : Query
  tag : String
  deriving DecidableEq

/-- The names in use and the key fields found so far. -/
structure Keys where
  names : List String
  fields : List KeyField
  deriving DecidableEq

/-- A step of planning the joins. -/
abbrev Planning : Type → Type := StateT Keys (Except Rejection)

/-- The name from which that of a key field is made. -/
def keyBase : Query → String
  | .step _ _ path => path.lastTag?.getD keyName
  | _ => keyName

/-- The tag of the field that holds a side of an equality. -/
def keyTag (endpoint : Endpoint) : Planning String := do
  match endpoint.query with
  | .reference name => return name
  | query =>
      if yieldsAttributes query then throw .attributeKey
      let keys ← get
      match keys.fields.find? fun field => field.group = endpoint.group && field.query = query with
      | some field => return field.tag
      | none =>
          let tag := freshName keys.names (keyBase query)
          set (⟨tag :: keys.names, keys.fields ++ [⟨endpoint.group, query, tag⟩]⟩ : Keys)
          return tag

/-- The pairs of tags for the join that adds a group, and the equalities that it does not
take up. -/
def planJoin (group : Nat) :
    List CrossEquality → Planning (List (String × String) × List CrossEquality)
  | [] => return ([], [])
  | equality :: rest => do
      match equality.orient group with
      | some (joined, new) =>
          let joinedTag ← keyTag joined
          let newTag ← keyTag new
          let (tags, others) ← planJoin group rest
          return ((joinedTag, newTag) :: tags, others)
      | none =>
          let (tags, others) ← planJoin group rest
          return (tags, equality :: others)

/-- The pairs of tags for the joins that add a number of groups from a given one on, and
the equalities that none of them takes up. -/
def planJoins (group : Nat) :
    Nat → List CrossEquality → Planning (List (List (String × String)) × List CrossEquality)
  | 0, equalities => return ([], equalities)
  | count + 1, equalities => do
      let (tags, others) ← planJoin group equalities
      let (joins, leftovers) ← planJoins (group + 1) count others
      return (tags :: joins, leftovers)

/-! ## Groups and joins -/

/-- A field that holds what a variable stands for. -/
def variableField (binding : Binding) : Query :=
  .element binding.name (.reference binding.name)

/-- The query for the tuples of a group. -/
def groupQuery (bindings : List Binding) (conditions : List Condition) (keys : List KeyField) :
    Except Rejection Query :=
  let fields := bindings.map variableField ++ keys.map fun key => .element key.tag key.query
  match Query.sequence fields with
  | none => .error .emptyGroup
  | some body =>
      .ok (.flwr bindings [] (Condition.conjunction conditions) (.element tupleName body))

/-- The queries for the tuples of all groups. -/
def groupQueries (flwr : Flwr) (grouping : Grouping) (equalities : List Equality)
    (keys : List KeyField) : Except Rejection (List Query) :=
  (List.range grouping.count).mapM fun group =>
    groupQuery ((grouping.members group).filterMap (flwr.bindings[·]?))
      (groupConditions grouping equalities group) (keys.filter (·.group = group))

/-- Queries joined from the left, with the pairs of tags for each join. -/
def joinChain (first : Query) (others : List (Query × List (String × String))) : Query :=
  others.foldl (fun joined (query, tags) =>
    .join joined query (tags.map (·.1)) (tags.map (·.2))) first

/-! ## Results -/

/-- A query in which bound variables are read from the fields of a tuple. -/
def project (tuple : String) (boundNames : List String) : Query → Query
  | .reference name =>
      if boundNames.contains name then
        .step (.reference tuple) .child (.step (.tag name) .child .wildcard)
      else .reference name
  | .parenthesized inner => .parenthesized (project tuple boundNames inner)
  | .pair left right => .pair (project tuple boundNames left) (project tuple boundNames right)
  | .step base axis path => .step (project tuple boundNames base) axis path
  | .element name body => .element name (project tuple boundNames body)
  | query => query

/-- Whether a query that is a path off a variable goes to a parent. -/
def walksToParent : Query → Bool
  | .step base _ path => path.usesParent || walksToParent base
  | .parenthesized inner => walksToParent inner
  | _ => false

/-- A condition that no join takes up, over the fields of a tuple. -/
def projectLeftover (tuple : String) (boundNames : List String) :
    Condition → Except Rejection Condition
  | .valueEq left right =>
      if walksToParent left || walksToParent right then .error .leftoverToParent
      else .ok (.valueEq (project tuple boundNames left) (project tuple boundNames right))
  | _ => .error .leftoverCondition

/-- The expression over joined tuples that replaces a `for` expression. -/
def assemble (flwr : Flwr) (grouping : Grouping) (equalities : List Equality) :
    Except Rejection Query := do
  let planning := planJoins 1 (grouping.count - 1) (crossEqualities grouping equalities)
  let ((joins, leftovers), keys) ← planning.run ⟨flwr.names, []⟩
  match ← groupQueries flwr grouping equalities keys.fields with
  | [] => throw .noGroups
  | first :: others =>
      let tuple := freshName keys.names tupleName
      let boundNames := flwr.bindings.map (·.name)
      let conditions ← leftovers.mapM fun leftover =>
        projectLeftover tuple boundNames leftover.source
      return .flwr [⟨tuple, joinChain first (others.zip joins)⟩] []
        (Condition.conjunction conditions) (project tuple boundNames flwr.result)

end TreeQuery.JoinPlan
