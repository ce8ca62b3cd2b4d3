import TreeQuery.Proofs.JoinPlan.Tuples

/-!
# Plans

A plan is what join planning finds out about an expression: the parents of its bindings,
the equalities of its condition, and the keys of the joins.  It fixes the rows of every
group (`Plan.groupRows`), the rows that are left when the groups before a given one have
been joined (`Plan.joinedRows`), and the fields of the tuples that stand for them.

Every side of an equality and every field is a path off a variable of its group, and all
fields have different names, those of different groups included.
-/

set_option autoImplicit false

namespace TreeQuery.JoinPlan

open Evaluation

variable {library : Library}

/-! ## Equalities and groups -/

/-- The conditions of a group are those of the equalities that speak of no other group. -/
theorem mem_groupConditions {grouping : Grouping} {equalities : List Equality} {group : Nat}
    {condition : Condition} : condition ∈ groupConditions grouping equalities group ↔
      ∃ equality ∈ equalities, (∀ owner ∈ equality.owners, grouping.group owner = group) ∧
        equality.source = condition := by
  have reaches : ∀ equality : Equality, (equality.reach grouping = .nothing ∨
      equality.reach grouping = .restriction group ∨ equality.reach grouping = .inside group) ↔
        ∀ owner ∈ equality.owners, grouping.group owner = group := by
    rintro ⟨left, right, source⟩
    cases left <;> cases right <;> simp [Equality.reach, Equality.owners, Operand.owner?]
    split <;> simp <;> omega
  simp only [groupConditions, sourcesOf, List.mem_append, List.mem_map, List.mem_filter,
    decide_eq_true_eq, ← reaches]
  constructor
  · rintro ((⟨equality, ⟨member, reach⟩, rfl⟩ | ⟨equality, ⟨member, reach⟩, rfl⟩) |
      ⟨equality, ⟨member, reach⟩, rfl⟩)
    · exact ⟨equality, member, .inl reach, rfl⟩
    · exact ⟨equality, member, .inr (.inl reach), rfl⟩
    · exact ⟨equality, member, .inr (.inr reach), rfl⟩
  · rintro ⟨equality, member, reach | reach | reach, rfl⟩
    · exact .inl (.inl ⟨equality, ⟨member, reach⟩, rfl⟩)
    · exact .inl (.inr ⟨equality, ⟨member, reach⟩, rfl⟩)
    · exact .inr ⟨equality, ⟨member, reach⟩, rfl⟩

/-- An equality between groups comes from one with two owners in different groups. -/
theorem mem_crossEqualities {grouping : Grouping} {equalities : List Equality}
    {cross : CrossEquality} : cross ∈ crossEqualities grouping equalities ↔
      ∃ equality ∈ equalities, ∃ owner query other otherQuery,
        equality.left = .path owner query ∧ equality.right = .path other otherQuery ∧
          grouping.group owner ≠ grouping.group other ∧
          ⟨⟨grouping.group owner, query⟩, ⟨grouping.group other, otherQuery⟩, equality.source⟩ =
            cross := by
  rw [crossEqualities, List.mem_filterMap]
  refine exists_congr fun equality => and_congr_right fun _ => ?_
  obtain ⟨left, right, source⟩ := equality
  cases left <;> cases right <;> simp [Equality.reach]
  rename_i owner query other otherQuery _
  by_cases same : grouping.group owner = grouping.group other <;> simp [same]

/-- A side of an equality between groups. -/
def IsSide (grouping : Grouping) (equalities : List Equality) (endpoint : Endpoint) : Prop :=
  ∃ cross ∈ crossEqualities grouping equalities, endpoint = cross.left ∨ endpoint = cross.right

theorem areSides_crossEqualities (grouping : Grouping) (equalities : List Equality) :
    AreSides (IsSide grouping equalities) (crossEqualities grouping equalities) :=
  fun equality member => ⟨⟨equality, member, .inl rfl⟩, ⟨equality, member, .inr rfl⟩⟩

/-- What an equality links to a group are sides, one in an earlier group and one in the group. -/
theorem isSide_of_orient {grouping : Grouping} {equalities : List Equality} {group : Nat}
    {cross : CrossEquality} (listed : cross ∈ crossEqualities grouping equalities)
    {joined new : Endpoint} (oriented : cross.orient group = some (joined, new)) :
    joined.group < group ∧ new.group = group ∧ IsSide grouping equalities joined ∧
      IsSide grouping equalities new := by
  have sides := areSides_crossEqualities grouping equalities cross listed
  obtain ⟨below, here, ends⟩ := CrossEquality.orient_eq_some oriented
  rcases ends with ⟨rfl, rfl⟩ | ⟨rfl, rfl⟩
  · exact ⟨below, here, sides⟩
  · exact ⟨below, here, sides.symm⟩

/-- An equality that speaks of a group and of earlier ones links them. -/
theorem exists_cross {grouping : Grouping} {equalities : List Equality} {group : Nat}
    {equality : Equality} (listed : equality ∈ equalities)
    (bounded : ∀ owner ∈ equality.owners, grouping.group owner < group + 1)
    (notBefore : ¬∀ owner ∈ equality.owners, grouping.group owner < group)
    (notInside : ¬∀ owner ∈ equality.owners, grouping.group owner = group) :
    ∃ cross ∈ crossEqualities grouping equalities, cross.source = equality.source ∧
      ∃ ends, cross.orient group = some ends := by
  obtain ⟨left, right, source⟩ := equality
  cases left with
  | constant value =>
      cases right <;> simp [Equality.owners, Operand.owner?] at *
      omega
  | path owner query =>
      cases right with
      | constant value => simp [Equality.owners, Operand.owner?] at *; omega
      | path other otherQuery =>
          simp only [Equality.owners, Operand.owner?, Option.toList_some, List.singleton_append,
            List.forall_mem_cons, List.not_mem_nil, false_imp_iff, forall_const,
            and_true] at bounded notBefore notInside
          refine ⟨_, mem_crossEqualities.mpr ⟨_, listed, owner, query, other, otherQuery, rfl, rfl,
            by omega, rfl⟩, rfl, ?_⟩
          rw [CrossEquality.orient]
          by_cases last : grouping.group other = group ∧ grouping.group owner < group
          · exact ⟨_, if_pos last⟩
          · exact ⟨_, (if_neg last).trans (if_pos (by dsimp only; omega))⟩

/-- A walk off one variable depends on that variable only. -/
theorem walk_congr_owner {view : View Home} {scope other : Scope} {query : Query} {owner : String}
    (owned : pathOwner? query = some owner) (agree : other.lookup owner = scope.lookup owner) :
    query.walk view other = query.walk view scope := by
  let nowhere : Library := fun name => .error (.unavailable name .unknown)
  have walks : query.IsWalk nowhere (owner = ·) := isWalk_of_pathOwner? rfl query owned
  exact walk_congr (fun name same => same ▸ agree) query walks

/-- Whether an equality holds depends on the variables of its owners only. -/
theorem Equality.Describes.test_congr {bindings : List Binding} {equality : Equality}
    (describes : equality.Describes bindings) {view : View Home} {scope other : Scope}
    (agree : ∀ owner ∈ equality.owners, ∀ binding, bindings[owner]? = some binding →
      other.lookup binding.name = scope.lookup binding.name) :
    equality.source.test view other = equality.source.test view scope := by
  cases describes with
  | @intro left right query counterpart first second =>
      have walks : ∀ {operand : Operand} {query : Query}, operand.Describes bindings query →
          (∀ owner ∈ operand.owner?.toList, ∀ binding, bindings[owner]? = some binding →
            other.lookup binding.name = scope.lookup binding.name) → query.constant? = none →
              query.walk view other = query.walk view scope := by
        intro operand query describes agree path
        cases operand with
        | constant value => exact nomatch path.symm.trans describes
        | path owner inner =>
            obtain ⟨_, _, binding, found, owned⟩ := describes
            exact walk_congr_owner owned (agree owner (by simp [Operand.owner?]) binding found)
      have leftWalks := walks first fun owner member =>
        agree owner (List.mem_append_left _ member)
      have rightWalks := walks second fun owner member =>
        agree owner (List.mem_append_right _ member)
      dsimp only
      rw [Condition.test, Condition.test]
      cases leftConstant : query.constant? with
      | some value =>
          cases rightConstant : counterpart.constant? with
          | some also => rfl
          | none => exact congrArg (anyStringValue view · value) (rightWalks rightConstant)
      | none =>
          cases rightConstant : counterpart.constant? with
          | some value => exact congrArg (anyStringValue view · value) (leftWalks leftConstant)
          | none =>
              exact congrArg₂ (anyValueEq view) (leftWalks leftConstant)
                (rightWalks rightConstant)

/-! ## Plans -/

/-- What join planning finds out about an expression. -/
structure Plan where
  bindings : List Binding
  parents : List (Option Nat)
  equalities : List Equality
  keys : Keys

namespace Plan

variable (plan : Plan) (view : View Home) (outer : Scope) (group : Nat)

/-- The groups of the bindings. -/
def grouping : Grouping := .ofParents plan.parents

/-- The bindings of a group. -/
def bindingsOf : List Binding := plan.grouping.bindingsOf plan.bindings group

/-- The bindings of the groups before a group. -/
def bindingsBefore : List Binding := plan.grouping.bindingsBefore plan.bindings group

/-- The conditions of a group. -/
def conditionsOf : List Condition := groupConditions plan.grouping plan.equalities group

/-- The equalities that speak of groups before a group only. -/
def equalitiesBefore : List Equality :=
  plan.equalities.filter fun equality => equality.owners.all (plan.grouping.group · < group)

/-- The rows of a group that satisfy its conditions. -/
def groupRows : List Scope :=
  (Binding.rows view outer (plan.bindingsOf group) []).filter fun row =>
    (plan.conditionsOf group).all (·.test view (row ++ outer))

/-- The rows of the groups before a group that satisfy the equalities that can be decided. -/
def joinedRows : List Scope :=
  (Binding.rows view outer (plan.bindingsBefore group) []).filter fun row =>
    (plan.equalitiesBefore group).all (·.source.test view (row ++ outer))

/-- The fields of a group's tuples. -/
def groupFields : List (String × Query) :=
  fieldsOf (plan.bindingsOf group) (plan.keys.fields.filter (·.group = group))

/-- The fields of the tuples of the groups before a group. -/
def fieldsBefore : List (String × Query) :=
  (List.range group).flatMap plan.groupFields

theorem fieldsBefore_succ : plan.fieldsBefore (group + 1) =
    plan.fieldsBefore group ++ plan.groupFields group := by
  rw [fieldsBefore, List.range_succ, List.flatMap_append, List.flatMap_singleton, fieldsBefore]

theorem fieldsBefore_one (plan : Plan) : plan.fieldsBefore 1 = plan.groupFields 0 := by
  rw [fieldsBefore_succ]
  rfl

theorem mem_fieldsBefore {plan : Plan} {group : Nat} {field : String × Query} :
    field ∈ plan.fieldsBefore group ↔ ∃ before < group, field ∈ plan.groupFields before := by
  rw [fieldsBefore, List.mem_flatMap]
  simp only [List.mem_range]

/-- What a plan promises: the expression is eligible, its roots can be evaluated, and sides
of equalities between groups reach elements and texts only. -/
structure Prepared (plan : Plan) (library : Library) (outer : Scope) (start : Arena) : Prop where
  documents : library.WellFormed
  formed : start.WellFormed
  existing : outer.Exist (library.view start)
  areParents : AreParents plan.bindings plan.parents
  contiguous : plan.grouping.isContiguous = true
  roots : ∀ source ∈ Binding.rootSources [] plan.bindings, source.IsWalk library outer.Binds
  describes : ∀ equality ∈ plan.equalities, equality.Describes plan.bindings
  sound : plan.keys.Sound (plan.bindings.map (·.name)) (IsSide plan.grouping plan.equalities)
  content : ∀ endpoint, IsSide plan.grouping plan.equalities endpoint →
    ∀ row ∈ plan.groupRows (library.view start) outer endpoint.group,
      ∀ item ∈ endpoint.query.walk (library.view start) (row ++ outer),
        item.IsContent (library.view start)

/-! ## Owned queries -/

section Owned

variable {plan : Plan} {group : Nat} (areParents : AreParents plan.bindings plan.parents)
include areParents

theorem name_mem_bindingsOf {owner : Nat} {binding : Binding}
    (found : plan.bindings[owner]? = some binding) (inside : plan.grouping.group owner = group) :
    binding.name ∈ (plan.bindingsOf group).map (·.name) :=
  List.mem_map_of_mem ((Grouping.mem_bindingsOf areParents).mpr ⟨owner, found, inside⟩)

theorem name_mem_bindingsBefore {owner : Nat} {binding : Binding}
    (found : plan.bindings[owner]? = some binding) (before : plan.grouping.group owner < group) :
    binding.name ∈ (plan.bindingsBefore group).map (·.name) :=
  List.mem_map_of_mem ((Grouping.mem_bindingsBefore areParents).mpr ⟨owner, found, before⟩)

variable (describes : ∀ equality ∈ plan.equalities, equality.Describes plan.bindings)
include describes

theorem group_owner_lt {equality : Equality} (listed : equality ∈ plan.equalities) {owner : Nat}
    (owns : owner ∈ equality.owners) : plan.grouping.group owner < plan.grouping.count := by
  obtain ⟨binding, found⟩ := (describes equality listed).exists_owner owns
  refine Grouping.group_lt_count areParents.earlier ?_
  exact areParents.length ▸ (List.getElem?_eq_some_iff.mp found).1

/-- All equalities can be decided when all groups have been joined. -/
theorem equalitiesBefore_count :
    plan.equalitiesBefore plan.grouping.count = plan.equalities := by
  refine List.filter_eq_self.mpr fun equality listed => List.all_eq_true.mpr fun owner owns => ?_
  exact decide_eq_true (group_owner_lt areParents describes listed owns)

/-- The variable that a side is a path off is bound by the group of the side. -/
theorem owned_of_isSide {endpoint : Endpoint}
    (isSide : IsSide plan.grouping plan.equalities endpoint) :
    ∃ name ∈ (plan.bindingsOf endpoint.group).map (·.name),
      pathOwner? endpoint.query = some name := by
  have owned : ∀ {operand : Operand} {query : Query}, operand.Describes plan.bindings query →
      ∀ {owner : Nat} {inner : Query}, operand = .path owner inner →
        ∃ name ∈ (plan.bindingsOf (plan.grouping.group owner)).map (·.name),
          pathOwner? inner = some name := by
    rintro _ query describes owner inner rfl
    obtain ⟨_, rfl, binding, found, owned⟩ := describes
    refine ⟨binding.name, name_mem_bindingsOf areParents found rfl, ?_⟩
    rw [pathOwner?_unparenthesized, owned]
  obtain ⟨cross, member, side⟩ := isSide
  obtain ⟨equality, listed, owner, query, other, otherQuery, left, right, _, rfl⟩ :=
    mem_crossEqualities.mp member
  have describes := describes equality listed
  cases describes with
  | intro first second =>
      rcases side with rfl | rfl
      · exact owned first left
      · exact owned second right

/-- The conditions of a group speak of the variables of the group. -/
theorem isTest_of_mem_conditionsOf {condition : Condition}
    (listed : condition ∈ plan.conditionsOf group) :
    condition.IsTest library (· ∈ (plan.bindingsOf group).map (·.name)) := by
  obtain ⟨equality, member, same, rfl⟩ := mem_groupConditions.mp listed
  exact (describes equality member).isTest fun owner owns binding found =>
    name_mem_bindingsOf areParents found (same owner owns)

end Owned

/-! ## Fields -/

section Fields

variable {plan : Plan} {group : Nat} (areParents : AreParents plan.bindings plan.parents)
variable (sound : plan.keys.Sound (plan.bindings.map (·.name))
  (IsSide plan.grouping plan.equalities))

include sound in
/-- The name of a field is the name of a variable of the group or the tag of a key of the
group. -/
theorem name_of_field {name : String} (listed : name ∈ (plan.groupFields group).map (·.1)) :
    name ∈ (plan.bindingsOf group).map (·.name) ∨
      name ∉ plan.bindings.map (·.name) ∧
        ∃ key ∈ plan.keys.fields, key.group = group ∧ key.tag = name := by
  rw [Plan.groupFields, fieldsOf, List.map_append, List.map_map, List.map_map,
    List.mem_append] at listed
  rcases listed with listed | listed
  · exact .inl listed
  · obtain ⟨key, member, rfl⟩ := List.mem_map.mp listed
    obtain ⟨member, inGroup⟩ := List.mem_filter.mp member
    exact .inr ⟨sound.fresh key member, key, member, of_decide_eq_true inGroup, rfl⟩

include areParents

theorem bindingsOf_sublist (group : Nat) : (plan.bindingsOf group).Sublist plan.bindings :=
  Grouping.bindingsOf_sublist areParents group

include sound

/-- A field name belongs to one group. -/
theorem group_of_field {other : Nat} {name : String}
    (listed : name ∈ (plan.groupFields group).map (·.1))
    (also : name ∈ (plan.groupFields other).map (·.1)) : group = other := by
  have bound : ∀ {group : Nat}, name ∈ (plan.bindingsOf group).map (·.name) →
      name ∈ plan.bindings.map (·.name) :=
    fun {group} listed => ((bindingsOf_sublist areParents group).map (·.name)).subset listed
  rcases name_of_field sound listed with here | ⟨new, key, member, rfl, rfl⟩
  · rcases name_of_field sound also with there | ⟨new, _⟩
    · exact Grouping.group_unique areParents here there
    · exact absurd (bound here) new
  · rcases name_of_field sound also with there | ⟨_, twin, twinMember, rfl, same⟩
    · exact absurd (bound there) new
    · rw [List.inj_on_of_nodup_map sound.nodup twinMember member same]

/-- The fields of a group have different names. -/
theorem nodup_groupFields (group : Nat) : ((plan.groupFields group).map (·.1)).Nodup := by
  rw [Plan.groupFields, fieldsOf, List.map_append, List.map_map, List.map_map]
  refine List.Nodup.append ?_ ?_ ?_
  · exact areParents.nodup.sublist ((bindingsOf_sublist areParents group).map _)
  · exact sound.nodup.sublist (List.filter_sublist.map _)
  · intro name ofVariable ofKey
    obtain ⟨field, member, rfl⟩ := List.mem_map.mp ofKey
    have bound := ((bindingsOf_sublist areParents group).map (·.name)).subset ofVariable
    exact sound.fresh field (List.mem_of_mem_filter member) bound

/-- The fields of the groups before a group have different names. -/
theorem nodup_fieldsBefore (group : Nat) : ((plan.fieldsBefore group).map (·.1)).Nodup := by
  rw [Plan.fieldsBefore, List.map_flatMap, List.nodup_flatMap]
  refine ⟨fun before _ => nodup_groupFields areParents sound before, ?_⟩
  refine List.pairwise_lt_range.imp fun {before later} lt name listed also => ?_
  exact absurd (group_of_field areParents sound listed also) (Nat.ne_of_lt lt)

variable (describes : ∀ equality ∈ plan.equalities, equality.Describes plan.bindings)
include describes

/-- The variable that the query of a field is a path off is bound by the group. -/
theorem owned_of_mem_groupFields {field : String × Query}
    (listed : field ∈ plan.groupFields group) :
    ∃ name ∈ (plan.bindingsOf group).map (·.name), pathOwner? field.2 = some name := by
  rcases List.mem_append.mp listed with listed | listed
  · obtain ⟨binding, member, rfl⟩ := List.mem_map.mp listed
    exact ⟨binding.name, List.mem_map_of_mem member, rfl⟩
  · obtain ⟨key, member, rfl⟩ := List.mem_map.mp listed
    obtain ⟨member, inGroup⟩ := List.mem_filter.mp member
    have owned := owned_of_isSide areParents describes (sound.sides key member)
    rwa [of_decide_eq_true inGroup] at owned

theorem owned_of_mem_fieldsBefore {field : String × Query}
    (listed : field ∈ plan.fieldsBefore group) :
    ∃ name ∈ (plan.bindingsBefore group).map (·.name), pathOwner? field.2 = some name := by
  obtain ⟨before, below, listed⟩ := mem_fieldsBefore.mp listed
  obtain ⟨name, member, owned⟩ := owned_of_mem_groupFields areParents sound describes listed
  refine ⟨name, ?_, owned⟩
  rw [Plan.bindingsBefore, Grouping.bindingsBefore, List.map_flatMap, List.mem_flatMap]
  exact ⟨before, List.mem_range.mpr below, member⟩

omit sound in
/-- A tag names a field that holds the side. -/
theorem mem_groupFields_of_names {endpoint : Endpoint} {tag : String}
    (isSide : IsSide plan.grouping plan.equalities endpoint)
    (named : plan.keys.Names endpoint tag) :
    (tag, endpoint.query) ∈ plan.groupFields endpoint.group := by
  rw [Plan.groupFields, fieldsOf, List.mem_append]
  rcases named with reference | key
  · obtain ⟨name, bound, owned⟩ := owned_of_isSide areParents describes isSide
    rw [reference, pathOwner?, Option.some.injEq] at owned
    obtain ⟨binding, member, same⟩ := List.mem_map.mp bound
    refine .inl (List.mem_map.mpr ⟨binding, member, ?_⟩)
    rw [reference, same, owned]
  · exact .inr (List.mem_map.mpr ⟨_, List.mem_filter.mpr ⟨key, decide_eq_true rfl⟩, rfl⟩)

end Fields

end Plan

end TreeQuery.JoinPlan
