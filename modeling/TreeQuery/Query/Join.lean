import TreeQuery.Document.Node

/-!
# Joining tuples

The items that a join works on are tuples: elements whose element children are fields.
The key of a tuple for a tag consists of the value keys of everything in the fields of
that name, attributes and children alike.  Two tuples match on a pair of tags when their
keys have a value in common, and they are joined when they match on every pair of the
two tag lists.

A join does not compare every left tuple with every right one.  It indexes the right
tuples by the values of their first keys, looks up the values of a left tuple's first key,
and compares the other keys of the candidates only.  The candidates are sorted, so the
matches come in the order of the left items and, for one left item, in the order of the
right items.

Keys are sets, and a set has an order of its own in which it lists its values.
-/

set_option autoImplicit false

namespace TreeQuery

variable {Home : Type}

/-! ## Keys -/

/-- The sides of a join. -/
inductive Side where
  | left
  | right

/-- The orders in which the keys of a join list their values.  Every key is a set by
itself: the order can differ with the side, the position of the tuple and the position of
the tag. -/
structure KeyOrder where
  list : Side → Nat → Nat → List String → List String
  mem_list : ∀ {side : Side} {tuple tag : Nat} {values : List String} {value : String},
    value ∈ list side tuple tag values ↔ value ∈ values
  nodup_list : ∀ (side : Side) (tuple tag : Nat) (values : List String),
    (list side tuple tag values).Nodup

/-- Dropping repeated members leaves no repetition. -/
theorem nodup_eraseDups {α : Type} [BEq α] [LawfulBEq α] (members : List α) :
    members.eraseDups.Nodup := by
  generalize size : members.length = length
  induction length using Nat.strongRecOn generalizing members with
  | ind length ih =>
      cases members with
      | nil => exact List.nodup_nil
      | cons first rest =>
          rw [List.eraseDups_cons, List.nodup_cons]
          refine ⟨by simp, ih _ ?_ _ rfl⟩
          rw [← size, List.length_cons]
          exact Nat.lt_succ_of_le (List.length_filter_le _ _)

/-- Every key lists its values in the order in which they are met. -/
def KeyOrder.asMet : KeyOrder where
  list _ _ _ values := values.eraseDups
  mem_list := List.mem_eraseDups
  nodup_list _ _ _ values := nodup_eraseDups values

/-- The key of a tuple for a tag. -/
def Node.tupleKey (view : View Home) (tuple : Node Home) (tag : String) : List String :=
  let fields := (tuple.children view).filter (·.isElementNamed view tag)
  (fields.flatMap fun field => field.attributes view ++ field.children view).map (·.valueKey view)

/-- The keys of the tuples of a side for the tags of a list, every key as a set. -/
def tupleKeys (view : View Home) (order : KeyOrder) (side : Side) (tags : List String)
    (tuples : List (Node Home)) : List (List (List String)) :=
  tuples.mapIdx fun position tuple =>
    tags.mapIdx fun tag name => order.list side position tag (tuple.tupleKey view name)

/-- Whether two keys have a value in common. -/
def keysMeet (left right : List String) : Bool :=
  left.any right.contains

/-- Whether two lists of keys meet at every position after the first. -/
def laterKeysMeet (left right : List (List String)) : Bool :=
  ((left.zip right).drop 1).all fun (left, right) => keysMeet left right

/-! ## The index -/

/-- The positions of tuples under the values of their first keys. -/
abbrev KeyIndex : Type := List (String × List Nat)

namespace KeyIndex

/-- Adds a position under a value, after those that are there. -/
def add (index : KeyIndex) (value : String) (position : Nat) : KeyIndex :=
  match index with
  | [] => [(value, [position])]
  | (other, positions) :: rest =>
      if other = value then (other, positions ++ [position]) :: rest
      else (other, positions) :: add rest value position

/-- The positions under a value. -/
def positions (index : KeyIndex) (value : String) : List Nat :=
  (index.lookup value).getD []

/-- Adds the position of a tuple under every value of its first key. -/
def addTuple (index : KeyIndex) (tuple : List (List String) × Nat) : KeyIndex :=
  (tuple.1.headD []).foldl (fun index value => index.add value tuple.2) index

/-- The index of tuples given by their keys. -/
def ofKeys (keys : List (List (List String))) : KeyIndex :=
  keys.zipIdx.foldl addTuple []

end KeyIndex

/-! ## Matches -/

/-- The positions of the tuples whose first key has a value in common with that of a
tuple. -/
def candidates (index : KeyIndex) (keys : List (List String)) : List Nat :=
  ((keys.headD []).flatMap index.positions).mergeSort.eraseReps

/-- The positions of the tuples that match on every pair of tags, of which there is at
least one. -/
def matchKeys (left right : List (List (List String))) : List (Nat × Nat) :=
  let index := KeyIndex.ofKeys right
  left.zipIdx.flatMap fun (keys, position) =>
    ((candidates index keys).filter fun other => laterKeysMeet keys (right.getD other [])).map
      (position, ·)

/-- The positions of the tuples that match on every pair of tags. -/
def matchTuples (view : View Home) (order : KeyOrder) (left right : List (Node Home))
    (leftTags rightTags : List String) : List (Nat × Nat) :=
  if leftTags.isEmpty then
    (List.range left.length).flatMap fun position => (List.range right.length).map (position, ·)
  else matchKeys (tupleKeys view order .left leftTags left)
    (tupleKeys view order .right rightTags right)

end TreeQuery
