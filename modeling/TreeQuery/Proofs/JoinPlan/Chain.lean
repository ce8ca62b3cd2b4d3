import TreeQuery.Proofs.JoinPlan.Plan

/-!
# The chain of joins

Joining one more group combines the rows joined so far with those of the group, and keeps
the combinations that satisfy the equalities between the two (`joinedRows_succ`).  A join
over tuples does the same, because the tags of a pair find in the tuples the two sides of an
equality (`matchesOn_tupleFragment`).  So a chain of joins yields one tuple for every row of
the whole expression that satisfies its condition, in the order of the rows
(`joinChain_yields`).
-/

set_option autoImplicit false

namespace TreeQuery.JoinPlan

open Evaluation

variable {library : Library}

theorem anyValueEq_comm (view : View Home) (items others : List Item) :
    anyValueEq view others items = anyValueEq view items others := by
  rw [Bool.eq_iff_iff, ← keysMeet_valueKeys, ← keysMeet_valueKeys, keysMeet_iff, keysMeet_iff]
  exact exists_congr fun value => and_comm

/-- An equality of two paths compares what they reach. -/
theorem Equality.Describes.test_paths {bindings : List Binding} {equality : Equality}
    (describes : equality.Describes bindings) {owner other : Nat} {query otherQuery : Query}
    (left : equality.left = .path owner query) (right : equality.right = .path other otherQuery)
    (view : View Home) (scope : Scope) :
    equality.source.test view scope =
      anyValueEq view (query.walk view scope) (otherQuery.walk view scope) := by
  cases describes with
  | intro first second =>
      dsimp only at left right
      subst left right
      obtain ⟨firstPath, rfl, _⟩ := first
      obtain ⟨secondPath, rfl, _⟩ := second
      rw [Condition.test, firstPath, secondPath, walk_unparenthesized, walk_unparenthesized]

namespace Plan

/-- Whether a row of a group goes with a row of the groups before: whether they satisfy all
equalities between them. -/
def links (plan : Plan) (view : View Home) (outer : Scope) (group : Nat) (row other : Scope) :
    Bool :=
  ((crossEqualities plan.grouping plan.equalities).filterMap (·.orient group)).all
    fun (joined, new) =>
      anyValueEq view (joined.query.walk view (row ++ outer)) (new.query.walk view (other ++ outer))

/-- The rows of the first group are the first rows. -/
theorem joinedRows_one (plan : Plan) (view : View Home) (outer : Scope) :
    plan.joinedRows view outer 1 = plan.groupRows view outer 0 := by
  rw [Plan.joinedRows, Plan.groupRows, Plan.bindingsBefore, Grouping.bindingsBefore_succ]
  refine List.filter_congr fun row _ => ?_
  rw [Bool.eq_iff_iff]
  simp only [List.all_eq_true, equalitiesBefore, List.mem_filter, decide_eq_true_eq, conditionsOf,
    mem_groupConditions, Nat.lt_one_iff]
  constructor
  · rintro passes _ ⟨equality, member, same, rfl⟩
    exact passes equality ⟨member, same⟩
  · rintro passes equality ⟨member, same⟩
    exact passes _ ⟨equality, member, same, rfl⟩

namespace Prepared

variable {plan : Plan} {outer : Scope} {start : Arena} {group : Nat}
variable (prepared : plan.Prepared library outer start)
include prepared

/-! ## Combined rows -/

section Rows

variable {row other : Scope}

/-- The variables of earlier groups keep their values when a group is added. -/
theorem lookup_before (also : other ∈
    Binding.rows (library.view start) outer (plan.bindingsOf group) []) {name : String}
    (bound : name ∈ (plan.bindingsBefore group).map (·.name)) :
    (other ++ row ++ outer).lookup name = (row ++ outer).lookup name := by
  have new : name ∉ other.map (·.1) := by
    rw [Binding.mem_names_row also]
    exact not_mem_names_bindingsOf prepared.areParents bound
  rw [List.append_assoc, List.lookup_append, Scope.lookup_eq_none new, Option.none_or]

omit prepared in
/-- The variables of a group have the values of the group's row. -/
theorem lookup_inside (also : other ∈
    Binding.rows (library.view start) outer (plan.bindingsOf group) []) {name : String}
    (bound : name ∈ (plan.bindingsOf group).map (·.name)) :
    (other ++ row ++ outer).lookup name = (other ++ outer).lookup name :=
  Scope.lookup_apart (.inl ((Binding.mem_names_row also).mpr bound))

variable (also : other ∈ Binding.rows (library.view start) outer (plan.bindingsOf group) [])
include also

/-- An equality between groups compares a path of the earlier rows with one of the group's
rows. -/
theorem test_cross {cross : CrossEquality}
    (listed : cross ∈ crossEqualities plan.grouping plan.equalities) {joined new : Endpoint}
    (oriented : cross.orient group = some (joined, new)) :
    cross.source.test (library.view start) (other ++ row ++ outer) =
      anyValueEq (library.view start) (joined.query.walk (library.view start) (row ++ outer))
        (new.query.walk (library.view start) (other ++ outer)) := by
  obtain ⟨below, here, isSide, isNewSide⟩ := isSide_of_orient listed oriented
  obtain ⟨name, bound, owned⟩ := owned_of_isSide prepared.areParents prepared.describes isSide
  obtain ⟨newName, newBound, newOwned⟩ :=
    owned_of_isSide prepared.areParents prepared.describes isNewSide
  have bound : name ∈ (plan.bindingsBefore group).map (·.name) := by
    rw [Plan.bindingsBefore, Grouping.bindingsBefore, List.map_flatMap, List.mem_flatMap]
    exact ⟨joined.group, List.mem_range.mpr below, bound⟩
  rw [here] at newBound
  have joinedWalk : joined.query.walk (library.view start) (other ++ row ++ outer) =
      joined.query.walk (library.view start) (row ++ outer) :=
    walk_congr_owner owned (prepared.lookup_before also bound)
  have newWalk : new.query.walk (library.view start) (other ++ row ++ outer) =
      new.query.walk (library.view start) (other ++ outer) :=
    walk_congr_owner newOwned (lookup_inside also newBound)
  obtain ⟨equality, member, owner, query, twin, twinQuery, left, right, _, rfl⟩ :=
    mem_crossEqualities.mp listed
  dsimp only
  rw [(prepared.describes equality member).test_paths left right, ← joinedWalk, ← newWalk]
  rcases (CrossEquality.orient_eq_some oriented).2.2 with ⟨rfl, rfl⟩ | ⟨rfl, rfl⟩
  · rfl
  · exact anyValueEq_comm _ _ _

/-- **A combination satisfies the equalities if both rows satisfy theirs and the two satisfy
those between them.** -/
theorem passes_iff :
    (plan.equalitiesBefore (group + 1)).all
        (·.source.test (library.view start) (other ++ row ++ outer)) =
      ((plan.equalitiesBefore group).all (·.source.test (library.view start) (row ++ outer)) &&
        ((plan.conditionsOf group).all (·.test (library.view start) (other ++ outer)) &&
          plan.links (library.view start) outer group row other)) := by
  have before : ∀ equality ∈ plan.equalities,
      (∀ owner ∈ equality.owners, plan.grouping.group owner < group) →
        equality.source.test (library.view start) (other ++ row ++ outer) =
          equality.source.test (library.view start) (row ++ outer) :=
    fun equality member below => (prepared.describes equality member).test_congr
      fun owner owns binding found =>
        prepared.lookup_before also
          (name_mem_bindingsBefore prepared.areParents found (below owner owns))
  have inside : ∀ equality ∈ plan.equalities,
      (∀ owner ∈ equality.owners, plan.grouping.group owner = group) →
        equality.source.test (library.view start) (other ++ row ++ outer) =
          equality.source.test (library.view start) (other ++ outer) :=
    fun equality member same => (prepared.describes equality member).test_congr
      fun owner owns binding found =>
        lookup_inside also (name_mem_bindingsOf prepared.areParents found (same owner owns))
  rw [Bool.eq_iff_iff]
  simp only [Bool.and_eq_true, List.all_eq_true, links, List.mem_filterMap, equalitiesBefore,
    List.mem_filter, decide_eq_true_eq, conditionsOf, mem_groupConditions]
  constructor
  · intro passes
    refine ⟨fun equality ⟨member, below⟩ => ?_, ?_, ?_⟩
    · rw [← before equality member below]
      exact passes equality ⟨member, fun owner owns => Nat.lt_succ_of_lt (below owner owns)⟩
    · rintro _ ⟨equality, member, same, rfl⟩
      rw [← inside equality member same]
      exact passes equality ⟨member, fun owner owns =>
        Nat.lt_succ_of_le (Nat.le_of_eq (same owner owns))⟩
    · rintro ⟨joined, new⟩ ⟨cross, listed, oriented⟩
      rw [← prepared.test_cross also listed oriented]
      obtain ⟨below, here, ends⟩ := CrossEquality.orient_eq_some oriented
      obtain ⟨equality, member, owner, query, twin, twinQuery, left, right, _, rfl⟩ :=
        mem_crossEqualities.mp listed
      refine passes equality ⟨member, ?_⟩
      rw [Equality.owners, left, right]
      rcases ends with ⟨rfl, rfl⟩ | ⟨rfl, rfl⟩ <;> simp [Operand.owner?] at * <;> omega
  · rintro ⟨passesBefore, passesInside, passesBetween⟩ equality ⟨member, below⟩
    by_cases early : ∀ owner ∈ equality.owners, plan.grouping.group owner < group
    · rw [before equality member early]
      exact passesBefore equality ⟨member, early⟩
    · by_cases same : ∀ owner ∈ equality.owners, plan.grouping.group owner = group
      · rw [inside equality member same]
        exact passesInside _ ⟨equality, member, same, rfl⟩
      · obtain ⟨cross, listed, source, ⟨joined, new⟩, oriented⟩ :=
          exists_cross member below early same
        rw [← source, prepared.test_cross also listed oriented]
        exact passesBetween (joined, new) ⟨cross, listed, oriented⟩

end Rows

/-- **Every row joined so far is combined with the rows of the group that go with it.** -/
theorem joinedRows_succ (group : Nat) :
    plan.joinedRows (library.view start) outer (group + 1) =
      (plan.joinedRows (library.view start) outer group).flatMap fun row =>
        ((plan.groupRows (library.view start) outer group).filter
          (plan.links (library.view start) outer group row)).map (· ++ row) := by
  have rows := @rows_bindingsBefore_succ library _ _ outer (library.view start)
    prepared.areParents prepared.contiguous prepared.roots group
  have splits : ∀ row ∈ Binding.rows (library.view start) outer (plan.bindingsBefore group) [],
      ∀ other ∈ Binding.rows (library.view start) outer (plan.bindingsOf group) [],
        (plan.equalitiesBefore (group + 1)).all
            (·.source.test (library.view start) (other ++ row ++ outer)) =
          ((plan.equalitiesBefore group).all
              (·.source.test (library.view start) (row ++ outer)) &&
            ((plan.conditionsOf group).all (·.test (library.view start) (other ++ outer)) &&
              plan.links (library.view start) outer group row other)) :=
    fun row _ other also => prepared.passes_iff also
  rw [Plan.joinedRows, Plan.bindingsBefore, Plan.grouping, rows]
  refine (filter_combinations (fun row other => other ++ row) (fun row =>
    (plan.equalitiesBefore (group + 1)).all (·.source.test (library.view start) (row ++ outer)))
    splits).trans (List.flatMap_congr fun row _ => ?_)
  rw [Plan.groupRows, List.filter_filter]
  congr 1
  exact List.filter_congr fun other _ => Bool.and_comm _ _

/-! ## What fields hold -/

/-- Every field of a group's tuple holds elements and texts. -/
theorem isContent_groupFields {row : Scope}
    (member : row ∈ plan.groupRows (library.view start) outer group) {field : String × Query}
    (listed : field ∈ plan.groupFields group) :
    ∀ item ∈ field.2.walk (library.view start) (row ++ outer),
      item.IsContent (library.view start) := by
  rcases List.mem_append.mp listed with listed | listed
  · obtain ⟨binding, bound, rfl⟩ := List.mem_map.mp listed
    have sources : ∀ binding ∈ plan.bindingsOf group, IsSource binding.source := by
      intro binding bound
      obtain ⟨i, found, _⟩ := (Grouping.mem_bindingsOf prepared.areParents).mp bound
      exact prepared.areParents.source found
    obtain ⟨item, found, content⟩ := Binding.lookup_row (prepared.documents.view prepared.formed)
      sources (List.mem_of_mem_filter member) (List.mem_map_of_mem bound)
    intro reached walked
    rw [Query.walk, List.lookup_append, found] at walked
    exact List.mem_singleton.mp walked ▸ content
  · obtain ⟨key, keyListed, rfl⟩ := List.mem_map.mp listed
    obtain ⟨inKeys, inGroup⟩ := List.mem_filter.mp keyListed
    obtain rfl := of_decide_eq_true inGroup
    exact prepared.content _ (prepared.sound.sides key inKeys) row member

theorem walk_fieldsBefore {row other : Scope} (also : other ∈
    Binding.rows (library.view start) outer (plan.bindingsOf group) []) {field : String × Query}
    (listed : field ∈ plan.fieldsBefore group) :
    field.2.walk (library.view start) (other ++ row ++ outer) =
      field.2.walk (library.view start) (row ++ outer) := by
  obtain ⟨name, bound, owned⟩ :=
    owned_of_mem_fieldsBefore prepared.areParents prepared.sound prepared.describes listed
  exact walk_congr_owner owned (prepared.lookup_before also bound)

theorem walk_groupFields {row other : Scope} (also : other ∈
    Binding.rows (library.view start) outer (plan.bindingsOf group) []) {field : String × Query}
    (listed : field ∈ plan.groupFields group) :
    field.2.walk (library.view start) (other ++ row ++ outer) =
      field.2.walk (library.view start) (other ++ outer) := by
  obtain ⟨name, bound, owned⟩ :=
    owned_of_mem_groupFields prepared.areParents prepared.sound prepared.describes listed
  exact walk_congr_owner owned (lookup_inside also bound)

/-- Every field of a joined tuple holds elements and texts. -/
theorem isContent_fieldsBefore {row : Scope}
    (member : row ∈ plan.joinedRows (library.view start) outer group) {field : String × Query}
    (listed : field ∈ plan.fieldsBefore group) :
    ∀ item ∈ field.2.walk (library.view start) (row ++ outer),
      item.IsContent (library.view start) := by
  induction group generalizing row with
  | zero => exact nomatch listed
  | succ group ih =>
      rw [prepared.joinedRows_succ, List.mem_flatMap] at member
      obtain ⟨before, beforeMember, member⟩ := member
      obtain ⟨other, otherMember, rfl⟩ := List.mem_map.mp member
      have otherMember := List.mem_of_mem_filter otherMember
      have also := List.mem_of_mem_filter otherMember
      rw [fieldsBefore_succ, List.mem_append] at listed
      rcases listed with listed | listed
      · rw [prepared.walk_fieldsBefore also listed]
        exact ih beforeMember listed
      · rw [prepared.walk_groupFields also listed]
        exact prepared.isContent_groupFields otherMember listed

/-! ## Matching tuples -/

/-- **Tuples match exactly if their rows satisfy the equalities between them.** -/
theorem matchesOn_tupleFragment {row other : Scope} {tags : List (String × String)}
    (member : row ∈ plan.joinedRows (library.view start) outer group)
    (also : other ∈ plan.groupRows (library.view start) outer group)
    (named : List.Forall₂ plan.keys.NamesBoth
      ((crossEqualities plan.grouping plan.equalities).filterMap (·.orient group)) tags) :
    (tupleFragment (library.view start) (row ++ outer) (plan.fieldsBefore group)).matchesOn
        (tags.map (·.1)) (tags.map (·.2))
        (tupleFragment (library.view start) (other ++ outer) (plan.groupFields group)) =
      plan.links (library.view start) outer group row other := by
  have sides : ∀ ends ∈
      (crossEqualities plan.grouping plan.equalities).filterMap (·.orient group),
      ends.1.group < group ∧ ends.2.group = group ∧
        IsSide plan.grouping plan.equalities ends.1 ∧
          IsSide plan.grouping plan.equalities ends.2 := by
    rintro ⟨joined, new⟩ listed
    obtain ⟨cross, listed, oriented⟩ := List.mem_filterMap.mp listed
    exact isSide_of_orient listed oriented
  rw [Plan.links, Fragment.matchesOn]
  generalize (crossEqualities plan.grouping plan.equalities).filterMap (·.orient group) = linked
    at named sides
  induction named with
  | nil => rfl
  | @cons ends pair _ _ both _ ih =>
      obtain ⟨below, here, isSide, isNewSide⟩ := sides ends List.mem_cons_self
      have joined : (pair.1, ends.1.query) ∈ plan.fieldsBefore group :=
        mem_fieldsBefore.mpr
          ⟨_, below, mem_groupFields_of_names prepared.areParents prepared.describes isSide both.1⟩
      have new : (pair.2, ends.2.query) ∈ plan.groupFields group :=
        here ▸ mem_groupFields_of_names prepared.areParents prepared.describes isNewSide both.2
      rw [List.map_cons, List.map_cons, List.map_cons, List.map_cons, keyListsMeet_cons,
        ih fun other listed => sides other (List.mem_cons_of_mem _ listed), List.all_cons,
        tupleKey_tupleFragment (nodup_fieldsBefore prepared.areParents prepared.sound group) joined
          (prepared.isContent_fieldsBefore member joined),
        tupleKey_tupleFragment (nodup_groupFields prepared.areParents prepared.sound group) new
          (prepared.isContent_groupFields also new), keysMeet_valueKeys]

/-! ## Yields of the chain -/

theorem groupQuery_yields {query : Query}
    (planned : groupQuery (plan.bindingsOf group) (plan.conditionsOf group)
      (plan.keys.fields.filter (·.group = group)) = .ok query) :
    query.Yields library start outer
      ((plan.groupRows (library.view start) outer group).map fun row =>
        tupleFragment (library.view start) (row ++ outer) (plan.groupFields group)) := by
  have walks : Binding.AreWalks library outer.Binds (plan.bindingsOf group) :=
    (areWalks_bindingsOf prepared.areParents prepared.contiguous prepared.roots).mono _
      fun name isBound => isBound.1
  have fields : ∀ field ∈ plan.groupFields group,
      field.2.IsWalk library (· ∈ (plan.bindingsOf group).map (·.name)) := by
    intro field listed
    obtain ⟨name, bound, owned⟩ :=
      owned_of_mem_groupFields prepared.areParents prepared.sound prepared.describes listed
    exact isWalk_of_pathOwner? bound field.2 owned
  exact JoinPlan.groupQuery_yields prepared.documents prepared.formed prepared.existing walks
    (fun condition listed =>
      isTest_of_mem_conditionsOf prepared.areParents prepared.describes listed)
    fields rfl (fun row member field listed => prepared.isContent_groupFields member listed) planned

/-- Joining one more group to what yields the rows joined so far. -/
theorem join_yields {joined query : Query} {tags : List (String × String)}
    (yields : joined.Yields library start outer
      ((plan.joinedRows (library.view start) outer group).map fun row =>
        tupleFragment (library.view start) (row ++ outer) (plan.fieldsBefore group)))
    (planned : groupQuery (plan.bindingsOf group) (plan.conditionsOf group)
      (plan.keys.fields.filter (·.group = group)) = .ok query)
    (named : List.Forall₂ plan.keys.NamesBoth
      ((crossEqualities plan.grouping plan.equalities).filterMap (·.orient group)) tags) :
    (Query.join joined query (tags.map (·.1)) (tags.map (·.2))).Yields library start outer
      ((plan.joinedRows (library.view start) outer (group + 1)).map fun row =>
        tupleFragment (library.view start) (row ++ outer) (plan.fieldsBefore (group + 1))) := by
  have arity : (tags.map (·.1)).length = (tags.map (·.2)).length := by
    rw [List.length_map, List.length_map]
  have both := Query.Yields.join prepared.documents prepared.formed yields
    (prepared.groupQuery_yields planned) arity
  rw [List.flatMap_map] at both
  rw [prepared.joinedRows_succ, List.map_flatMap, fieldsBefore_succ]
  refine cast (congrArg _ (List.flatMap_congr fun row member => ?_)) both
  rw [List.filter_map, List.map_map, List.map_map]
  have linked : (plan.groupRows (library.view start) outer group).filter
      ((tupleFragment (library.view start) (row ++ outer) (plan.fieldsBefore group)).matchesOn
        (tags.map (·.1)) (tags.map (·.2)) ∘ fun other =>
          tupleFragment (library.view start) (other ++ outer) (plan.groupFields group)) =
      (plan.groupRows (library.view start) outer group).filter
        (plan.links (library.view start) outer group row) :=
    List.filter_congr fun other also => prepared.matchesOn_tupleFragment member also named
  rw [linked]
  refine List.map_congr_left fun other listed => ?_
  have also := List.mem_of_mem_filter (List.mem_of_mem_filter listed)
  exact joined_tupleFragment (fun field listed => prepared.walk_fieldsBefore also listed)
    fun field listed => prepared.walk_groupFields also listed

/-- **A chain of joins yields a tuple for every row of its groups.** -/
theorem joinChain_yields {count : Nat} : {stages : List (Query × List (String × String))} →
    {group : Nat} → {joined : Query} →
    joined.Yields library start outer
      ((plan.joinedRows (library.view start) outer group).map fun row =>
        tupleFragment (library.view start) (row ++ outer) (plan.fieldsBefore group)) →
    List.Forall₂ (fun added stage =>
        groupQuery (plan.bindingsOf added) (plan.conditionsOf added)
          (plan.keys.fields.filter (·.group = added)) = .ok stage.1 ∧
        List.Forall₂ plan.keys.NamesBoth
          ((crossEqualities plan.grouping plan.equalities).filterMap (·.orient added)) stage.2)
      (List.range' group count) stages →
    (joinChain joined stages).Yields library start outer
      ((plan.joinedRows (library.view start) outer (group + count)).map fun row =>
        tupleFragment (library.view start) (row ++ outer) (plan.fieldsBefore (group + count))) := by
  induction count with
  | zero =>
      intro stages group joined yields planned
      cases planned
      exact yields
  | succ count ih =>
      intro stages group joined yields planned
      rw [List.range'_succ] at planned
      cases planned with
      | cons head rest =>
          have chained := ih (prepared.join_yields yields head.1 head.2) rest
          rwa [Nat.add_right_comm] at chained

end Prepared

end Plan

end TreeQuery.JoinPlan
