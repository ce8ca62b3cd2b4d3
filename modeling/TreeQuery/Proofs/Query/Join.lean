import Mathlib.Data.List.Sort
import TreeQuery.Proofs.Query.Evaluation

/-!
# A join is a nested loop

A join indexes the first keys of the right tuples, looks values up in the index, sorts what
it finds and compares only the other keys.  What comes out is what comparing every left
tuple with every right tuple would yield, in the order of the two loops
(`matchTuples_eq_nestedLoop`), whatever the orders in which the keys list their values.

The index has under a value exactly the positions of the tuples whose first key has that
value (`mem_positions_ofKeys`); the rest is that a sorted list without repetitions is
determined by its members.
-/

set_option autoImplicit false

namespace TreeQuery

variable {Home : Type}

/-! ## The specification -/

/-- The pairs of positions below two bounds that satisfy a condition, the first position
in the outer loop. -/
def nestedLoop (condition : Nat → Nat → Bool) (first second : Nat) : List (Nat × Nat) :=
  (List.range first).flatMap fun position =>
    ((List.range second).filter (condition position)).map (position, ·)

theorem mem_nestedLoop {condition : Nat → Nat → Bool} {first second position other : Nat} :
    (position, other) ∈ nestedLoop condition first second ↔
      position < first ∧ other < second ∧ condition position other = true := by
  simp [nestedLoop, and_assoc]

/-- The pairs come in lexicographic order. -/
theorem pairwise_nestedLoop (condition : Nat → Nat → Bool) (first second : Nat) :
    (nestedLoop condition first second).Pairwise (Prod.Lex (· < ·) (· < ·)) := by
  rw [nestedLoop, List.pairwise_flatMap]
  refine ⟨fun position _ => ?_, List.pairwise_lt_range.imp fun before => ?_⟩
  · rw [List.pairwise_map]
    exact (List.pairwise_lt_range.filter _).imp fun before => .right _ before
  · intro pair member other otherMember
    obtain ⟨_, _, rfl⟩ := List.mem_map.mp member
    obtain ⟨_, _, rfl⟩ := List.mem_map.mp otherMember
    exact .left _ _ before

/-- Whether two lists of keys meet at every position. -/
def keyListsMeet (left right : List (List String)) : Bool :=
  (left.zip right).all fun (left, right) => keysMeet left right

/-- Whether two tuples match on every pair of tags. -/
def Node.matchesOn (view : View Home) (leftTags rightTags : List String)
    (tuple other : Node Home) : Bool :=
  keyListsMeet (leftTags.map (tuple.tupleKey view)) (rightTags.map (other.tupleKey view))

/-- Whether the tuples at two positions match on every pair of tags. -/
def matchAt (view : View Home) (left right : List (Node Home)) (leftTags rightTags : List String)
    (position other : Nat) : Bool :=
  match left[position]?, right[other]? with
  | some tuple, some counterpart => tuple.matchesOn view leftTags rightTags counterpart
  | _, _ => false

/-! ## Keys as sets -/

theorem keysMeet_iff {left right : List String} :
    keysMeet left right = true ↔ ∃ value, value ∈ left ∧ value ∈ right := by
  simp [keysMeet]

/-- Two lists have the same members. -/
def SameMembers (first second : List String) : Prop := ∀ value, value ∈ second ↔ value ∈ first

/-- Whether keys meet does not depend on how they list their values. -/
theorem keysMeet_congr {left right left' right' : List String}
    (sameLeft : SameMembers left left') (sameRight : SameMembers right right') :
    keysMeet left' right' = keysMeet left right := by
  rw [Bool.eq_iff_iff, keysMeet_iff, keysMeet_iff]
  exact exists_congr fun value => and_congr (sameLeft value) (sameRight value)

@[simp] theorem keyListsMeet_cons (key other : List String) (left right : List (List String)) :
    keyListsMeet (key :: left) (other :: right) =
      (keysMeet key other && keyListsMeet left right) := rfl

theorem keyListsMeet_congr {left right left' right' : List (List String)}
    (sameLeft : List.Forall₂ SameMembers left left')
    (sameRight : List.Forall₂ SameMembers right right') :
    keyListsMeet left' right' = keyListsMeet left right := by
  induction sameLeft generalizing right right' with
  | nil => rfl
  | cons head _ ih =>
      cases sameRight with
      | nil => rfl
      | cons other others =>
          rw [keyListsMeet_cons, keyListsMeet_cons, ih others, keysMeet_congr head other]

/-- The keys of a tuple list the values of its keys. -/
theorem sameMembers_keys (view : View Home) (order : KeyOrder) (side : Side) (position : Nat)
    (tags : List String) (tuple : Node Home) :
    List.Forall₂ SameMembers (tags.map (tuple.tupleKey view))
      (tags.mapIdx fun tag name => order.list side position tag (tuple.tupleKey view name)) := by
  refine List.forall₂_iff_get.mpr ⟨by simp, fun i inside inside' value => ?_⟩
  simpa using order.mem_list

/-! ## The index -/

namespace KeyIndex

theorem positions_cons (key other : String) (found : List Nat) (rest : KeyIndex) :
    positions ((other, found) :: rest) key =
      if key = other then found else positions rest key := by
  rw [positions, List.lookup_cons]
  by_cases same : key = other
  · simp [same]
  · rw [beq_false_of_ne same, if_neg same, positions]

theorem positions_add (index : KeyIndex) (value key : String) (position : Nat) :
    (index.add value position).positions key =
      if key = value then index.positions key ++ [position] else index.positions key := by
  induction index with
  | nil => rw [add, positions_cons]; rfl
  | cons entry rest ih =>
      obtain ⟨other, found⟩ := entry
      rw [add]
      by_cases here : other = value
      · subst here
        rw [if_pos rfl, positions_cons, positions_cons]
        split <;> rfl
      · rw [if_neg here, positions_cons, positions_cons, ih]
        by_cases same : key = other
        · rw [if_pos same, if_pos same, if_neg (same ▸ here)]
        · rw [if_neg same, if_neg same]

/-- Adding a position under the values of a key. -/
theorem mem_positions_addTuple (tuple : List (List String)) (position : Nat) (key : String)
    (other : Nat) (index : KeyIndex) :
    other ∈ (index.addTuple (tuple, position)).positions key ↔
      other ∈ index.positions key ∨ (other = position ∧ key ∈ tuple.headD []) := by
  rw [addTuple]
  generalize tuple.headD [] = values
  induction values generalizing index with
  | nil => simp
  | cons value rest ih =>
      rw [List.foldl_cons, ih, positions_add]
      by_cases same : key = value
      · rw [if_pos same, List.mem_append, List.mem_singleton, List.mem_cons]
        tauto
      · simp [same]

/-- **The index lists a position under a value if the tuple there has the value.** -/
theorem mem_positions_ofKeys (keys : List (List (List String))) (key : String) (other : Nat) :
    other ∈ (ofKeys keys).positions key ↔
      ∃ tupleKeys, keys[other]? = some tupleKeys ∧ key ∈ tupleKeys.headD [] := by
  have general : ∀ (keys : List (List (List String))) (start : Nat) (index : KeyIndex),
      other ∈ ((keys.zipIdx start).foldl addTuple index).positions key ↔
        other ∈ index.positions key ∨
          ∃ tupleKeys, (tupleKeys, other) ∈ keys.zipIdx start ∧ key ∈ tupleKeys.headD [] := by
    intro keys
    induction keys with
    | nil => simp
    | cons first rest ih =>
        intro start index
        rw [List.zipIdx_cons, List.foldl_cons, ih, mem_positions_addTuple, or_assoc]
        refine or_congr_right ?_
        constructor
        · rintro (⟨rfl, member⟩ | ⟨tupleKeys, listed, member⟩)
          · exact ⟨first, List.mem_cons_self, member⟩
          · exact ⟨tupleKeys, List.mem_cons_of_mem _ listed, member⟩
        · rintro ⟨tupleKeys, listed, member⟩
          rcases List.mem_cons.mp listed with same | later
          · obtain ⟨rfl, rfl⟩ := Prod.mk.inj same
            exact .inl ⟨rfl, member⟩
          · exact .inr ⟨tupleKeys, later, member⟩
  rw [ofKeys, general keys 0 []]
  simp [positions, List.mem_zipIdx_iff_getElem?]

end KeyIndex

/-! ## Candidates -/

/-- A sorted list without adjacent repetitions has no repetitions, and the same members. -/
theorem eraseReps_sorted {members : List Nat} (sorted : members.Pairwise (· ≤ ·)) :
    members.eraseReps.Pairwise (· < ·) ∧
      ∀ member, member ∈ members.eraseReps ↔ member ∈ members := by
  have loop : ∀ (rest : List Nat) (first : Nat) (kept : List Nat),
      (first :: rest).Pairwise (· ≤ ·) →
      ∃ after, List.eraseRepsBy.loop (· == ·) first rest kept = kept.reverse ++ first :: after ∧
        (first :: after).Pairwise (· < ·) ∧
        ∀ member, member ∈ first :: after ↔ member ∈ first :: rest := by
    intro rest
    induction rest with
    | nil => exact fun first kept _ => ⟨[], by simp [List.eraseRepsBy.loop], by simp, by simp⟩
    | cons next rest ih =>
        intro first kept sorted
        obtain ⟨below, tail⟩ := List.pairwise_cons.mp sorted
        rw [List.eraseRepsBy.loop]
        by_cases same : first = next
        · subst same
          rw [beq_self_eq_true]
          obtain ⟨after, result, strict, members⟩ := ih first kept tail
          exact ⟨after, result, strict, fun member => by rw [members]; simp⟩
        · rw [beq_false_of_ne same]
          obtain ⟨after, result, strict, members⟩ := ih next (first :: kept) tail
          refine ⟨next :: after, by simpa using result, ?_, fun member => ?_⟩
          · rw [List.pairwise_cons]
            refine ⟨fun member later => ?_, strict⟩
            have atLeast : next ≤ member := by
              rcases List.mem_cons.mp later with rfl | later
              · exact Nat.le_refl _
              · exact Nat.le_of_lt ((List.pairwise_cons.mp strict).1 member later)
            have := below next List.mem_cons_self
            omega
          · rw [List.mem_cons, members, ← List.mem_cons]
  cases members with
  | nil => exact ⟨.nil, by simp [List.eraseReps, List.eraseRepsBy]⟩
  | cons first rest =>
      obtain ⟨after, result, strict, members⟩ := loop rest first [] sorted
      rw [List.eraseReps, List.eraseRepsBy, result]
      exact ⟨strict, members⟩

theorem pairwise_mergeSort_le (members : List Nat) : members.mergeSort.Pairwise (· ≤ ·) := by
  refine (List.pairwise_mergeSort ?_ ?_ members).imp (by simp)
  · exact fun first second third => by simpa using Nat.le_trans
  · exact fun first second => by simpa using Nat.le_total first second

theorem pairwise_candidates (index : KeyIndex) (keys : List (List String)) :
    (candidates index keys).Pairwise (· < ·) :=
  (eraseReps_sorted (pairwise_mergeSort_le _)).1

theorem mem_candidates (index : KeyIndex) (keys : List (List String)) (position : Nat) :
    position ∈ candidates index keys ↔ ∃ key ∈ keys.headD [], position ∈ index.positions key := by
  rw [candidates, (eraseReps_sorted (pairwise_mergeSort_le _)).2, List.mem_mergeSort,
    List.mem_flatMap]

/-! ## Matches -/

/-- Whether the keys at two positions meet. -/
def keysMeetAt (left right : List (List (List String))) (position other : Nat) : Bool :=
  match left[position]?, right[other]? with
  | some keys, some others => keyListsMeet keys others
  | _, _ => false

/-- With at least one key to a tuple, indexing the first keys is as good as comparing all. -/
theorem matchKeys_eq_nestedLoop {left right : List (List (List String))}
    (someLeft : ∀ keys ∈ left, keys ≠ []) (someRight : ∀ keys ∈ right, keys ≠ []) :
    matchKeys left right = nestedLoop (keysMeetAt left right) left.length right.length := by
  have positions : left.zipIdx =
      (List.range left.length).map fun position => (left.getD position [], position) := by
    refine List.ext_getElem (by simp) fun i inside inside' => ?_
    have : i < left.length := by simpa using inside
    simp [this]
  rw [matchKeys, nestedLoop, positions, List.flatMap_map]
  refine List.flatMap_congr fun position member => ?_
  have inside : position < left.length := List.mem_range.mp member
  dsimp only
  congr 1
  refine List.Pairwise.eq_of_mem_iff ((pairwise_candidates _ _).filter _)
    (List.pairwise_lt_range.filter _) fun other => ?_
  rw [List.mem_filter, List.mem_filter, mem_candidates, List.mem_range]
  have found : left[position]? = some left[position] := List.getElem?_eq_getElem inside
  obtain ⟨key, keys, here⟩ :=
    List.exists_cons_of_ne_nil (someLeft left[position] (List.getElem_mem inside))
  rw [List.getD_eq_getElem?_getD, found, Option.getD_some, keysMeetAt, found, here]
  cases there : right[other]? with
  | none =>
      have outside : ¬other < right.length := by simpa using there
      simp [KeyIndex.mem_positions_ofKeys, outside]
  | some otherKeys =>
      obtain ⟨otherInside, value⟩ := List.getElem?_eq_some_iff.mp there
      obtain ⟨otherKey, others, rfl⟩ :=
        List.exists_cons_of_ne_nil (someRight otherKeys (List.mem_of_getElem? there))
      have later : laterKeysMeet (key :: keys) (otherKey :: others) = keyListsMeet keys others :=
        rfl
      simp [KeyIndex.mem_positions_ofKeys, otherInside, value, later, keysMeet_iff]

/-- **A join matches what a nested loop matches**, in the order of the loops and whatever
the orders in which the keys list their values. -/
theorem matchTuples_eq_nestedLoop (view : View Home) (order : KeyOrder)
    (left right : List (Node Home)) {leftTags rightTags : List String}
    (arity : leftTags.length = rightTags.length) :
    matchTuples view order left right leftTags rightTags =
      nestedLoop (matchAt view left right leftTags rightTags) left.length right.length := by
  rw [matchTuples]
  split
  · rename_i empty
    rw [List.isEmpty_iff] at empty
    subst empty
    obtain rfl := List.length_eq_zero_iff.mp arity.symm
    rw [nestedLoop]
    refine List.flatMap_congr fun position member => ?_
    rw [List.filter_eq_self.mpr]
    intro other otherMember
    rw [List.mem_range] at member otherMember
    rw [matchAt, List.getElem?_eq_getElem member, List.getElem?_eq_getElem otherMember]
    rfl
  · rename_i some
    rw [List.isEmpty_iff] at some
    have someRight : rightTags ≠ [] := by
      rintro rfl
      exact some (List.length_eq_zero_iff.mp arity)
    have nonempty : ∀ {side : Side} {tags : List String} {tuples : List (Node Home)}, tags ≠ [] →
        ∀ keys ∈ tupleKeys view order side tags tuples, keys ≠ [] := by
      intro side tags tuples some keys member
      obtain ⟨position, inside, rfl⟩ := List.mem_mapIdx.mp member
      simpa using some
    rw [matchKeys_eq_nestedLoop (nonempty some) (nonempty someRight), tupleKeys, tupleKeys,
      List.length_mapIdx, List.length_mapIdx]
    congr 1
    funext position other
    rw [keysMeetAt, matchAt, List.getElem?_mapIdx, List.getElem?_mapIdx]
    cases left[position]? with
    | none => rfl
    | some tuple =>
        cases right[other]? with
        | none => rfl
        | some counterpart =>
            exact keyListsMeet_congr (sameMembers_keys view order .left position leftTags tuple)
              (sameMembers_keys view order .right other rightTags counterpart)

/-! ## Joined tuples -/

section Evaluation

open Evaluation

variable {library : Library} {start before after : Arena} {left right : List Item}

/-- A node is the join of the tuples at two positions: an element, constructed after a
given point, whose children are copies of those of the two tuples. -/
def IsJoined (library : Library) (start : Arena) (left right : List Item) (after : Arena)
    (positions : Nat × Nat) (item : Item) : Prop :=
  ∃ tuple other, left[positions.1]? = some tuple ∧ right[positions.2]? = some other ∧
    item.home = .constructed ∧ start.size ≤ item.slot ∧
    item.Reads (library.view after) (.element tupleTag []
      ((tuple.children (library.view start) ++ other.children (library.view start)).map
        (·.fragment (library.view start))))

theorem IsJoined.extend {later : Arena} {positions : Nat × Nat} {item : Item}
    (joined : IsJoined library start left right after positions item)
    (extend : (library.view after).Extends (library.view later)) :
    IsJoined library start left right later positions item := by
  obtain ⟨tuple, other, here, there, home, slot, reads⟩ := joined
  exact ⟨tuple, other, here, there, home, slot, reads.extend extend⟩

variable (documents : library.WellFormed) (formedStart : start.WellFormed)
  (existing : ∀ item ∈ left ++ right, item.Exists (library.view start))
include documents formedStart existing

/-- Joining two tuples constructs one element around copies of their fields. -/
theorem joinTuple_isJoined (formed : before.WellFormed) (extend : start.Extends before)
    {positions : Nat × Nat} (first : positions.1 < left.length)
    (second : positions.2 < right.length) :
    ∃ item after, joinTuple library left right positions before = .ok [item] after ∧
      after.WellFormed ∧ before.Extends after ∧
      IsJoined library start left right after positions item := by
  have here := List.getElem?_eq_getElem first
  have there := List.getElem?_eq_getElem second
  have viewExtend := documents.extends formedStart formed extend
  have firstExists := existing _ (List.mem_append_left _ (List.getElem_mem first))
  have secondExists := existing _ (List.mem_append_right _ (List.getElem_mem second))
  have fieldsEq : left[positions.1].children (library.view before) ++
      right[positions.2].children (library.view before) =
      left[positions.1].children (library.view start) ++
        right[positions.2].children (library.view start) := by
    rw [Node.children_extend firstExists viewExtend, Node.children_extend secondExists viewExtend]
  have plain : ∀ field ∈ left[positions.1].children (library.view start) ++
      right[positions.2].children (library.view start),
      field.Reads (library.view start) (field.fragment (library.view start)) ∧
        (field.fragment (library.view start)).isAttribute = false := by
    intro field member
    rcases List.mem_append.mp member with listed | listed <;>
      exact ⟨Node.reads_of_mem_children viewExtend.formed listed,
        Node.isAttribute_of_mem_children viewExtend.formed listed⟩
  obtain ⟨item, after, run, isNew, reads⟩ :=
    constructElement_new documents formed tupleTag
      (left[positions.1].children (library.view start) ++
        right[positions.2].children (library.view start))
  have contents : (left[positions.1].children (library.view start) ++
      right[positions.2].children (library.view start)).flatMap (·.content (library.view before)) =
      (left[positions.1].children (library.view start) ++
        right[positions.2].children (library.view start)).map
          (·.fragment (library.view start)) := by
    rw [List.map_eq_flatMap]
    refine List.flatMap_congr fun field member => ?_
    exact ((plain field member).1.extend viewExtend).content_eq
  have noAttributes : ∀ fragment ∈ (left[positions.1].children (library.view start) ++
      right[positions.2].children (library.view start)).map (·.fragment (library.view start)),
      fragment.isAttribute = false :=
    List.forall_mem_map.mpr fun field member => (plain field member).2
  rw [contents, Fragment.attributesIn_eq_nil noAttributes, Fragment.childrenIn_eq_self noAttributes,
    List.foldl_nil] at reads
  refine ⟨item, after, ?_, isNew.formed, isNew.extend, _, _, here, there, ?_, ?_, reads⟩
  · rw [joinTuple, here, there]
    dsimp only
    rw [bind_ok (observe_apply _), fieldsEq, bind_ok run, pure_apply]
  · rw [isNew.eq_next]
  · rw [isNew.eq_next]
    exact extend.size_le

/-- Every pair of positions is joined, in order. -/
theorem collect_joinTuple : ∀ (pairs : List (Nat × Nat)) {before : Arena}, before.WellFormed →
    start.Extends before → (∀ pair ∈ pairs, pair.1 < left.length ∧ pair.2 < right.length) →
    ∃ items after, collect (joinTuple library left right) pairs before = .ok items after ∧
      after.WellFormed ∧ before.Extends after ∧
      List.Forall₂ (IsJoined library start left right after) pairs items
  | [], before, formed, _, _ => ⟨[], before, rfl, formed, .refl _, .nil⟩
  | pair :: rest, before, formed, extend, bounded => by
      obtain ⟨first, second⟩ := bounded pair List.mem_cons_self
      obtain ⟨item, middle, run, stillMiddle, extendMiddle, joined⟩ :=
        joinTuple_isJoined documents formedStart existing formed extend first second
      obtain ⟨items, after, runRest, still, extendRest, joinedRest⟩ :=
        collect_joinTuple rest stillMiddle (extend.trans extendMiddle)
          fun pair member => bounded pair (List.mem_cons_of_mem _ member)
      refine ⟨item :: items, after, ?_, still, extendMiddle.trans extendRest, .cons ?_ joinedRest⟩
      · rw [collect, bind_ok run, bind_ok runRest, pure_apply, List.singleton_append]
      · exact joined.extend (documents.extends stillMiddle still extendRest)

/-- **Joining tuples joins what a nested loop matches.** -/
theorem joinTuples_isJoined (order : KeyOrder) {leftTags rightTags : List String}
    (arity : leftTags.length = rightTags.length) :
    ∃ items after, joinTuples library order left right leftTags rightTags start = .ok items after ∧
      after.WellFormed ∧ start.Extends after ∧
      List.Forall₂ (IsJoined library start left right after)
        (nestedLoop (matchAt (library.view start) left right leftTags rightTags) left.length
          right.length) items := by
  obtain ⟨items, after, run, still, extend, joined⟩ :=
    collect_joinTuple documents formedStart existing
      (nestedLoop (matchAt (library.view start) left right leftTags rightTags) left.length
        right.length) formedStart (.refl _)
      fun pair member =>
        have bounded := mem_nestedLoop.mp member
        ⟨bounded.1, bounded.2.1⟩
  refine ⟨items, after, ?_, still, extend, joined⟩
  rw [joinTuples, bind_ok (observe_apply _), matchTuples_eq_nestedLoop _ _ _ _ arity, run]

end Evaluation

/-! ## Joins -/

/-- A value is in the key of a tuple for a tag: it is the value key of an attribute or a
child of some field of that name. -/
def Node.HasKey (view : View Home) (tuple : Node Home) (tag key : String) : Prop :=
  ∃ field ∈ tuple.children view, field.isElementNamed view tag = true ∧
    ∃ part ∈ field.attributes view ++ field.children view, part.valueKey view = key

theorem Node.mem_tupleKey {view : View Home} {tuple : Node Home} {tag key : String} :
    key ∈ tuple.tupleKey view tag ↔ tuple.HasKey view tag key := by
  simp only [tupleKey, HasKey, List.mem_map, List.mem_flatMap, List.mem_filter]
  constructor
  · rintro ⟨part, ⟨field, ⟨listed, named⟩, member⟩, same⟩
    exact ⟨field, listed, named, part, member, same⟩
  · rintro ⟨field, listed, named, part, member, same⟩
    exact ⟨part, ⟨field, ⟨listed, named⟩, member⟩, same⟩

theorem Node.matchesOn_iff {view : View Home} {tuple other : Node Home}
    {leftTags rightTags : List String} :
    tuple.matchesOn view leftTags rightTags other = true ↔
      ∀ (i : Nat) (inLeft : i < leftTags.length) (inRight : i < rightTags.length),
        ∃ key, tuple.HasKey view leftTags[i] key ∧ other.HasKey view rightTags[i] key := by
  rw [matchesOn, keyListsMeet, List.all_eq_true, List.forall_mem_iff_forall_getElem]
  simp only [List.getElem_zip, List.getElem_map, keysMeet_iff, mem_tupleKey, List.length_zip,
    List.length_map, Nat.lt_min]
  exact forall_congr' fun _ =>
    ⟨fun meets inLeft inRight => meets ⟨inLeft, inRight⟩,
      fun meets ⟨inLeft, inRight⟩ => meets inLeft inRight⟩

/-- The pairs of positions at which two sequences of tuples match on all pairs of tags:
each once, in lexicographic order. -/
structure AreMatches (view : View Home) (left right : List (Node Home))
    (leftTags rightTags : List String) (pairs : List (Nat × Nat)) : Prop where
  sorted : pairs.Pairwise (Prod.Lex (· < ·) (· < ·))
  mem_iff : ∀ l r, (l, r) ∈ pairs ↔ ∃ (inLeft : l < left.length) (inRight : r < right.length),
    ∀ (i : Nat) (inLeftTags : i < leftTags.length) (inRightTags : i < rightTags.length),
      ∃ key, left[l].HasKey view leftTags[i] key ∧ right[r].HasKey view rightTags[i] key

/-- A node is a tuple whose children, all of them constructed since, are copies of the
fields of two tuples, in order. -/
structure JoinsFields (library : Library) (start after : Arena) (tuple other item : Item) :
    Prop where
  payload : item.payload (library.view after) = .element Evaluation.tupleTag
  copies : ∀ child ∈ item.children (library.view after),
    child.home = .constructed ∧ start.size ≤ child.slot
  fields : (item.children (library.view after)).map (·.fragment (library.view after)) =
    (tuple.children (library.view start)).map (·.fragment (library.view start)) ++
      (other.children (library.view start)).map (·.fragment (library.view start))

theorem areMatches_nestedLoop (view : View Home) (left right : List (Node Home))
    (leftTags rightTags : List String) :
    AreMatches view left right leftTags rightTags
      (nestedLoop (matchAt view left right leftTags rightTags) left.length right.length) where
  sorted := pairwise_nestedLoop _ _ _
  mem_iff := by
    intro l r
    rw [mem_nestedLoop]
    constructor
    · rintro ⟨inLeft, inRight, matched⟩
      rw [matchAt, List.getElem?_eq_getElem inLeft, List.getElem?_eq_getElem inRight] at matched
      exact ⟨inLeft, inRight, Node.matchesOn_iff.mp matched⟩
    · rintro ⟨inLeft, inRight, matched⟩
      refine ⟨inLeft, inRight, ?_⟩
      rw [matchAt, List.getElem?_eq_getElem inLeft, List.getElem?_eq_getElem inRight]
      exact Node.matchesOn_iff.mpr matched

/-- The matches are determined. -/
theorem AreMatches.eq_nestedLoop {view : View Home} {left right : List (Node Home)}
    {leftTags rightTags : List String} {pairs : List (Nat × Nat)}
    (matched : AreMatches view left right leftTags rightTags pairs) :
    pairs = nestedLoop (matchAt view left right leftTags rightTags) left.length right.length := by
  refine List.Pairwise.eq_of_mem_iff matched.sorted (pairwise_nestedLoop _ _ _) ?_
  rintro ⟨l, r⟩
  rw [matched.mem_iff, (areMatches_nestedLoop view left right leftTags rightTags).mem_iff]

namespace Evaluation

/-- The orders in which keys list their values make no difference. -/
theorem join_order (library : Library) (order other : KeyOrder)
    (left right : Evaluation (List Item)) (leftTags rightTags : List String) :
    join library order left right leftTags rightTags =
      join library other left right leftTags rightTags := by
  rw [join, join]
  split
  · rename_i arity
    simp only [joinTuples, matchTuples_eq_nestedLoop _ _ _ _ arity]
  · rfl

/-- **A join is a nested loop over what its inputs yield.**  For tag lists of one length,
and whatever the orders in which keys list their values, it yields one new tuple for every
pair of positions at which the tuples match on all pairs of tags, in lexicographic order;
the children of that tuple are copies of those of the left tuple and then of the right
one. -/
theorem join_eq_nestedLoop (library : Library) (documents : library.Reachable)
    (order : KeyOrder) (first second : Evaluation (List Item)) (left right : List Item)
    (leftTags rightTags : List String) (arity : leftTags.length = rightTags.length)
    (before middle start : Arena) (reachable : start.Reachable)
    (firstRun : first before = .ok left middle) (secondRun : second middle = .ok right start)
    (existing : ∀ item ∈ left ++ right, item.Exists (library.view start)) :
    ∃ pairs items after,
      join library order first second leftTags rightTags before = .ok items after ∧
      AreMatches (library.view start) left right leftTags rightTags pairs ∧
      List.Forall₂ (fun positions item => ∃ tuple other,
        left[positions.1]? = some tuple ∧ right[positions.2]? = some other ∧
          JoinsFields library start after tuple other item) pairs items := by
  obtain ⟨items, after, run, still, extend, joined⟩ :=
    joinTuples_isJoined documents.wellFormed reachable.wellFormed existing order arity
  refine ⟨_, items, after, ?_, areMatches_nestedLoop _ _ _ _ _, joined.imp ?_⟩
  · rw [join, if_pos arity, bind_ok firstRun, bind_ok secondRun, run]
  · rintro positions item ⟨tuple, other, here, there, home, slot, reads⟩
    have formed := documents.wellFormed.view still
    refine ⟨tuple, other, here, there, reads.payload_eq formed, ?_, ?_⟩
    · intro child listed
      obtain ⟨childSlot, member, rfl⟩ := List.mem_map.mp listed
      have below := ((formed item.home).child_lt member).1
      exact ⟨home, Nat.le_of_lt (Nat.lt_of_le_of_lt slot below)⟩
    · rw [Node.map_fragment_children formed, reads.fragment, ← List.map_append]
      rfl

/-- Two tuples are joined with three on two pairs of tags.  The first left tuple has two
values in common with the first right tuple, and differs from the second in its other key. -/
theorem join_eq_nestedLoop_twoTags :
    let library : Library := fun name => .error (.unavailable name .unknown)
    let field (name : String) (values : List String) : Fragment :=
      .element name [] (values.map fun value => .element "v" [] [.text value])
    let start := Arena.empty
      |>.createElement tupleTag [field "k" ["1", "2"], field "n" ["a"]]
      |>.createElement tupleTag [field "k" ["2"], field "n" ["b"]]
      |>.createElement tupleTag [field "k" ["2", "1"], field "m" ["a"]]
      |>.createElement tupleTag [field "k" ["2"], field "m" ["b"]]
      |>.createElement tupleTag [field "k" ["1"], field "m" ["a"]]
    let left : List Item := [⟨.constructed, 1⟩, ⟨.constructed, 10⟩]
    let right : List Item := [⟨.constructed, 17⟩, ⟨.constructed, 26⟩, ⟨.constructed, 33⟩]
    let scope : Scope := [("left", left), ("right", right)]
    ∃ items after,
      join library .asMet ((Query.reference "left").evaluate library scope)
        ((Query.reference "right").evaluate library scope) ["k", "n"] ["k", "m"] start =
          .ok items after ∧
      List.Forall₂ (fun positions item => ∃ tuple other,
        left[positions.1]? = some tuple ∧ right[positions.2]? = some other ∧
          JoinsFields library start after tuple other item) [(0, 0), (0, 2), (1, 1)] items := by
  intro library field start left right scope
  have reachable : start.Reachable :=
    Arena.Reachable.empty.develops (.createElement _ _ (.createElement _ _ (.createElement _ _
      (.createElement _ _ (.createElement _ _ .refl)))))
  have firstRun : (Query.reference "left").evaluate library scope start = .ok left start := by
    simp only [Query.evaluate, scope, List.lookup_cons_self]
    rfl
  have secondRun : (Query.reference "right").evaluate library scope start = .ok right start := by
    simp only [Query.evaluate, scope]
    rfl
  obtain ⟨pairs, items, after, run, matched, joined⟩ :=
    join_eq_nestedLoop library (fun _ _ found => by cases found) .asMet _ _ left right
      ["k", "n"] ["k", "m"] rfl start start start reachable firstRun secondRun
      (by decide +kernel)
  have listed : pairs = [(0, 0), (0, 2), (1, 1)] := by
    rw [matched.eq_nestedLoop]
    decide +kernel
  exact ⟨items, after, run, listed ▸ joined⟩

end Evaluation

end TreeQuery
