import TreeQuery.Proofs.JoinPlan.Rejections

/-!
# The shape of rewritten expressions

A rewritten expression visits the tuples of a chain of joins and does nothing else: it has one
binding, no other clauses and no condition.  The chain joins one query for every group, from the
left and in the order of the groups, and can be read off the expression (`Query.chained`,
`Query.chainTags`).

Every equality between two groups is a pair of tags of exactly one join, the one that adds the
later group.  The tag on the left names the field of the side in an earlier group, and the tag on
the right that of the side in the new group; no two fields of the chain have one name
(`Query.IsJoinChain`).
-/

set_option autoImplicit false

namespace TreeQuery

open JoinPlan

/-! ## Reading sequences and chains -/

/-- The queries that a sequence nested to the left is made of. -/
def Query.members : Query → List Query
  | .pair left right => left.members ++ [right]
  | query => [query]

/-- The queries of a chain of joins from the left, in order. -/
def Query.chained : Query → List Query
  | .join left right _ _ => left.chained ++ [right]
  | query => [query]

/-- The tags of a chain of joins from the left, in order. -/
def Query.chainTags : Query → List (List String × List String)
  | .join left _ leftTags rightTags => left.chainTags ++ [(leftTags, rightTags)]
  | _ => []

theorem Query.members_foldl (queries : List Query) : ∀ first : Query,
    (queries.foldl .pair first).members = first.members ++ queries := by
  induction queries with
  | nil =>
      intro first
      rw [List.foldl_nil, List.append_nil]
  | cons next rest ih =>
      intro first
      rw [List.foldl_cons, ih, members, List.append_assoc, List.singleton_append]

/-- A sequence is made of its members, provided that the first is no sequence itself. -/
theorem Query.members_sequence {queries : List Query} {query : Query}
    (single : ∀ first ∈ queries.head?, first.members = [first])
    (made : Query.sequence queries = some query) : query.members = queries := by
  cases queries with
  | nil => cases made
  | cons first rest =>
      obtain rfl := Option.some.inj made
      rw [members_foldl, single first rfl, List.singleton_append]

/-- Fields in a sequence are its members. -/
theorem Query.members_fields {fields : List (String × Query)} {body : Query}
    (made : Query.sequence (fields.map fun (tag, held) => .element tag held) = some body) :
    body.members = fields.map fun (tag, held) => .element tag held := by
  apply members_sequence _ made
  intro first isFirst
  rw [List.head?_map] at isFirst
  obtain ⟨field, _, rfl⟩ := Option.map_eq_some_iff.mp isFirst
  rfl

theorem JoinPlan.chained_joinChain (stages : List (Query × List (String × String))) :
    ∀ first : Query, (joinChain first stages).chained = first.chained ++ stages.map (·.1) := by
  induction stages with
  | nil =>
      intro first
      rw [joinChain, List.foldl_nil, List.map_nil, List.append_nil]
  | cons stage rest ih =>
      intro first
      show (joinChain (.join first _ _ _) rest).chained = _
      rw [ih, Query.chained, List.append_assoc, List.map_cons, List.singleton_append]

theorem JoinPlan.chainTags_joinChain (stages : List (Query × List (String × String))) :
    ∀ first : Query, (joinChain first stages).chainTags =
      first.chainTags ++ stages.map fun stage => (stage.2.map (·.1), stage.2.map (·.2)) := by
  induction stages with
  | nil =>
      intro first
      rw [joinChain, List.foldl_nil, List.map_nil, List.append_nil]
  | cons stage rest ih =>
      intro first
      show (joinChain (.join first _ _ _) rest).chainTags = _
      rw [ih, Query.chainTags, List.append_assoc, List.map_cons, List.singleton_append]

/-! ## Equalities between groups -/

/-- The conditions that a conjunction is made of, in order. -/
def Condition.conjuncts : Condition → List Condition
  | .and left right => left.conjuncts ++ right.conjuncts
  | .parenthesized inner => inner.conjuncts
  | condition => [condition]

namespace JoinPlan

/-- A path off a variable as a side of an equality: the path, and the group of the variable. -/
def Grouping.side? (grouping : Grouping) (bindings : List Binding) (query : Query) :
    Option Endpoint := do
  let name ← pathOwner? query
  let owner ← bindings.findIdx? (·.name == name)
  return ⟨grouping.group owner, query.unparenthesized⟩

/-- The sides of an equality of paths off variables of two groups, that of the earlier group
first. -/
def Grouping.crossing? (grouping : Grouping) (bindings : List Binding) :
    Condition → Option (Endpoint × Endpoint)
  | .valueEq left right => do
      let first ← grouping.side? bindings left
      let second ← grouping.side? bindings right
      if first.group < second.group then some (first, second)
      else if second.group < first.group then some (second, first)
      else none
  | _ => none

end JoinPlan

/-- The equalities between groups in the condition of an expression, in order. -/
def Flwr.crossings (flwr : Flwr) (grouping : Grouping) : List (Endpoint × Endpoint) :=
  match flwr.condition with
  | none => []
  | some condition => condition.conjuncts.filterMap (grouping.crossing? flwr.bindings)

namespace JoinPlan

variable {grouping : Grouping} {bindings : List Binding}

/-- An operand as a side: a constant is none. -/
def Operand.side? (grouping : Grouping) : Operand → Option Endpoint
  | .constant _ => none
  | .path owner query => some ⟨grouping.group owner, query⟩

theorem side?_of_operand? {query : Query} {operand : Operand}
    (found : operand? bindings query = some operand) :
    grouping.side? bindings query = operand.side? grouping := by
  rw [operand?] at found
  rw [Grouping.side?, ← pathOwner?_unparenthesized]
  split at found
  · rename_i value constant
    obtain rfl := Option.some.inj found
    rw [constant]
    rfl
  · rename_i path _
    obtain ⟨name, owned, found⟩ := Option.bind_eq_some_iff.mp found
    obtain ⟨owner, place, found⟩ := Option.bind_eq_some_iff.mp found
    obtain rfl := Option.some.inj found
    rw [owned, Option.bind_eq_bind, Option.bind_some, place]
    rfl

/-- An equality is read from a conjunct whose sides are its operands. -/
def IsReadFrom (bindings : List Binding) (conjunct : Condition) (equality : Equality) : Prop :=
  ∃ left right, conjunct = .valueEq left right ∧
    operand? bindings left = some equality.left ∧ operand? bindings right = some equality.right

/-- The equalities of a condition, with the conditions that they are read from. -/
theorem conjuncts_of_equalitiesOf : (condition : Condition) → ∀ {equalities : List Equality},
    equalitiesOf bindings condition = .ok equalities →
      List.Forall₂ (IsReadFrom bindings) condition.conjuncts equalities
  | .and left right, equalities, planned => by
      rw [equalitiesOf] at planned
      obtain ⟨first, planLeft, planned⟩ := bind_eq_ok planned
      obtain ⟨second, planRight, planned⟩ := bind_eq_ok planned
      obtain rfl : first ++ second = equalities := Except.ok.inj planned
      rw [Condition.conjuncts]
      exact List.rel_append (conjuncts_of_equalitiesOf left planLeft)
        (conjuncts_of_equalitiesOf right planRight)
  | .parenthesized inner, equalities, planned => by
      rw [equalitiesOf] at planned
      exact conjuncts_of_equalitiesOf inner planned
  | .valueEq left right, equalities, planned => by
      rw [equalitiesOf] at planned
      split at planned
      · rename_i leftOperand rightOperand foundLeft foundRight
        obtain rfl := Except.ok.inj planned
        exact .cons ⟨left, right, rfl, foundLeft, foundRight⟩ .nil
      · cases planned

/-- The equality between two groups that an equality is, if it is one. -/
def Equality.cross? (grouping : Grouping) (equality : Equality) : Option CrossEquality :=
  match equality.reach grouping with
  | .across left right => some ⟨left, right, equality.source⟩
  | _ => none

/-- An equality links a group to earlier ones exactly if it crosses between groups the later of
which the group is. -/
theorem orient_of_isReadFrom (added : Nat) {conjunct : Condition} {equality : Equality}
    (read : IsReadFrom bindings conjunct equality) :
    (equality.cross? grouping).bind (·.orient added) =
      (grouping.crossing? bindings conjunct).filter (·.2.group = added) := by
  obtain ⟨left, right, rfl, foundLeft, foundRight⟩ := read
  obtain ⟨leftOperand, rightOperand, source⟩ := equality
  rw [Grouping.crossing?, side?_of_operand? foundLeft, side?_of_operand? foundRight]
  cases leftOperand with
  | constant value => cases rightOperand <;> rfl
  | path owner query =>
      cases rightOperand with
      | constant value => rfl
      | path other otherQuery =>
          simp only [Equality.cross?, Equality.reach, Operand.side?, Option.bind_eq_bind,
            Option.bind_some]
          rcases Nat.lt_trichotomy (grouping.group owner) (grouping.group other) with
            less | same | greater
          · have different := Nat.ne_of_lt less
            by_cases here : grouping.group other = added
            · subst here
              simp [CrossEquality.orient, Option.filter_some, less, different]
            · have notLast : ¬(grouping.group owner = added ∧ grouping.group other < added) := by
                omega
              simp [CrossEquality.orient, Option.filter_some, less, different, here, notLast]
          · simp [same]
          · have different := Nat.ne_of_gt greater
            have notBefore := Nat.lt_asymm greater
            by_cases here : grouping.group owner = added
            · subst here
              simp [CrossEquality.orient, Option.filter_some, greater, different, notBefore]
            · have notLast : ¬(grouping.group other = added ∧ grouping.group owner < added) := by
                omega
              simp [CrossEquality.orient, Option.filter_some, greater, different, notBefore, here,
                notLast]

/-- The join that adds a group takes up the equalities whose later group it is. -/
theorem filterMap_orient (added : Nat) {conjuncts : List Condition} {equalities : List Equality}
    (read : List.Forall₂ (IsReadFrom bindings) conjuncts equalities) :
    (crossEqualities grouping equalities).filterMap (·.orient added) =
      (conjuncts.filterMap (grouping.crossing? bindings)).filter (·.2.group = added) := by
  have across : crossEqualities grouping equalities = equalities.filterMap (·.cross? grouping) :=
    rfl
  rw [across, List.filterMap_filterMap, List.filter_filterMap]
  induction read with
  | nil => rfl
  | cons here _ ih =>
      rw [List.filterMap_cons, List.filterMap_cons, orient_of_isReadFrom added here, ih rfl]

theorem filterMap_orient_crossEqualities (added : Nat) {flwr : Flwr} {equalities : List Equality}
    (planned : checkCondition flwr = .ok equalities) :
    (crossEqualities grouping equalities).filterMap (·.orient added) =
      (flwr.crossings grouping).filter (·.2.group = added) := by
  rw [checkCondition] at planned
  rw [Flwr.crossings]
  cases present : flwr.condition with
  | none =>
      rw [present] at planned
      obtain rfl := Except.ok.inj planned
      rfl
  | some condition =>
      rw [present] at planned
      exact filterMap_orient added (conjuncts_of_equalitiesOf condition planned)

/-- The sides of an equality between groups are in different groups, the later one last. -/
theorem crossing?_eq_some {condition : Condition} {ends : Endpoint × Endpoint}
    (crosses : grouping.crossing? bindings condition = some ends) :
    ends.1.group < ends.2.group ∧ ∃ query, grouping.side? bindings query = some ends.2 := by
  unfold Grouping.crossing? at crosses
  split at crosses
  · rename_i left right
    obtain ⟨first, foundFirst, crosses⟩ := Option.bind_eq_some_iff.mp crosses
    obtain ⟨second, foundSecond, crosses⟩ := Option.bind_eq_some_iff.mp crosses
    split at crosses
    · rename_i less
      obtain rfl := Option.some.inj crosses
      exact ⟨less, right, foundSecond⟩
    · split at crosses
      · rename_i greater
        obtain rfl := Option.some.inj crosses
        exact ⟨greater, left, foundFirst⟩
      · cases crosses
  · cases crosses

theorem group_side?_lt_count {parents : List (Option Nat)}
    (areParents : AreParents bindings parents) {query : Query} {endpoint : Endpoint}
    (found : (Grouping.ofParents parents).side? bindings query = some endpoint) :
    endpoint.group < (Grouping.ofParents parents).count := by
  obtain ⟨name, _, found⟩ := Option.bind_eq_some_iff.mp found
  obtain ⟨owner, place, found⟩ := Option.bind_eq_some_iff.mp found
  obtain rfl := Option.some.inj found
  obtain ⟨inside, _⟩ := List.findIdx?_eq_some_iff_getElem.mp place
  exact Grouping.group_lt_count areParents.earlier (areParents.length ▸ inside)

/-- The later side of an equality between groups is in a group that a join adds. -/
theorem placed_of_mem_crossings {flwr : Flwr} {parents : List (Option Nat)}
    (areParents : AreParents flwr.bindings parents) {ends : Endpoint × Endpoint}
    (listed : ends ∈ flwr.crossings (.ofParents parents)) :
    ends.1.group < ends.2.group ∧ ends.2.group < (Grouping.ofParents parents).count := by
  rw [Flwr.crossings] at listed
  split at listed
  · cases listed
  · obtain ⟨condition, _, crosses⟩ := List.mem_filterMap.mp listed
    obtain ⟨apart, query, found⟩ := crossing?_eq_some crosses
    exact ⟨apart, group_side?_lt_count areParents found⟩

end JoinPlan

/-! ## Chains of joins -/

/-- A query for the tuples of bindings: it visits the bindings under some condition and returns
elements with the given fields, each a tag with the query that the field holds. -/
inductive Query.ReturnsTuples (bindings : List Binding) (fields : List (String × Query)) :
    Query → Prop where
  | intro {condition : Option Condition} {body : Query} :
      body.members = fields.map (fun (tag, held) => .element tag held) →
        Query.ReturnsTuples bindings fields
          (.flwr bindings [] condition (.element tupleName body))

/-- The tags of the join that adds a group: they go in pairs, one pair for every equality between
the group and an earlier one, in the order of the equalities.  The tag on the left names the field
that holds the side in the earlier group, which no other earlier group has, and the tag on the
right the field that holds the side in the group. -/
structure JoinPlan.LinksGroup (crossings : List (Endpoint × Endpoint))
    (fields : Nat → List (String × Query)) (added : Nat) (tags : List String × List String) :
    Prop where
  arity : tags.1.length = tags.2.length
  left : ∀ tag ∈ tags.1, ∃! group, group < added ∧ tag ∈ (fields group).map (·.1)
  right : ∀ tag ∈ tags.2, tag ∈ (fields added).map (·.1)
  pairs : List.Forall₂ (fun (ends : Endpoint × Endpoint) (pair : String × String) =>
      (pair.1, ends.1.query) ∈ fields ends.1.group ∧ (pair.2, ends.2.query) ∈ fields added)
    (crossings.filter (·.2.group = added)) (tags.1.zip tags.2)

/-- A chain of joins for the groups of an expression: one query for every group, joined in the
order of the groups, on the equalities between the groups, and with different names for all
fields.  Every equality between groups finds its join, the one that adds the later group. -/
structure Query.IsJoinChain (source : Query) (flwr : Flwr) (grouping : Grouping)
    (fields : Nat → List (String × Query)) : Prop where
  several : 2 ≤ grouping.count
  groups : List.Forall₂ (fun group query =>
      query.ReturnsTuples (grouping.bindingsOf flwr.bindings group) (fields group))
    (List.range grouping.count) source.chained
  joins : List.Forall₂ (LinksGroup (flwr.crossings grouping) fields)
    (List.range' 1 (grouping.count - 1)) source.chainTags
  distinct : (((List.range grouping.count).flatMap fields).map (·.1)).Nodup
  placed : ∀ ends ∈ flwr.crossings grouping,
    ends.1.group < ends.2.group ∧ ends.2.group < grouping.count

namespace JoinPlan

theorem returnsTuples_of_groupQuery {bindings : List Binding} {conditions : List Condition}
    {keys : List KeyField} {query : Query}
    (planned : groupQuery bindings conditions keys = .ok query) :
    query.ReturnsTuples bindings (fieldsOf bindings keys) := by
  obtain ⟨body, made, rfl⟩ := groupQuery_ok planned
  exact .intro (Query.members_fields made)

namespace Plan.Rewrites

variable {plan : Plan} {flwr : Flwr} {query : Query} (rewrites : plan.Rewrites flwr query)
include rewrites

/-- The pairs of tags of a join name the sides of the equalities that it takes up. -/
theorem linksGroup {added : Nat} {tags : List (String × String)}
    (named : List.Forall₂ plan.keys.NamesBoth
      ((crossEqualities plan.grouping plan.equalities).filterMap (·.orient added)) tags) :
    LinksGroup (flwr.crossings plan.grouping) plan.groupFields added
      (tags.map (·.1), tags.map (·.2)) := by
  have areParents := rewrites.areParents
  have describes := rewrites.describes
  -- the two sides of an equality that the join takes up have fields of the tags of its pair
  have fields : ∀ {ends : Endpoint × Endpoint} {pair : String × String},
      ends ∈ (crossEqualities plan.grouping plan.equalities).filterMap (·.orient added) →
        plan.keys.NamesBoth ends pair →
          ends.1.group < added ∧ (pair.1, ends.1.query) ∈ plan.groupFields ends.1.group ∧
            (pair.2, ends.2.query) ∈ plan.groupFields added := by
    rintro ⟨joined, new⟩ pair listed both
    obtain ⟨cross, listed, oriented⟩ := List.mem_filterMap.mp listed
    obtain ⟨below, here, isSide, isNewSide⟩ := isSide_of_orient listed oriented
    exact ⟨below, mem_groupFields_of_names areParents describes isSide both.1,
      here ▸ mem_groupFields_of_names areParents describes isNewSide both.2⟩
  have zipped : (tags.map (·.1)).zip (tags.map (·.2)) = tags := by
    rw [List.zip_map']
    exact List.map_id tags
  have taken : (crossEqualities plan.grouping plan.equalities).filterMap (·.orient added) =
      (flwr.crossings plan.grouping).filter (·.2.group = added) :=
    filterMap_orient_crossEqualities added rewrites.condition
  have gathered := Gathered.of_forall₂ named
  refine ⟨?_, ?_, ?_, ?_⟩
  · rw [List.length_map, List.length_map]
  · intro tag member
    obtain ⟨pair, listed, rfl⟩ := List.mem_map.mp member
    obtain ⟨ends, taken, both⟩ := gathered.right pair listed
    obtain ⟨below, here, _⟩ := fields taken both
    have named : pair.1 ∈ (plan.groupFields ends.1.group).map (·.1) :=
      List.mem_map_of_mem here
    refine ⟨ends.1.group, ⟨below, named⟩, ?_⟩
    rintro other ⟨_, also⟩
    exact group_of_field areParents rewrites.sound_bindings also named
  · intro tag member
    obtain ⟨pair, listed, rfl⟩ := List.mem_map.mp member
    obtain ⟨ends, taken, both⟩ := gathered.right pair listed
    exact List.mem_map_of_mem (fields taken both).2.2
  · rw [zipped, ← taken]
    exact ((List.forall₂_and_left _ _).mpr ⟨fun _ member => member, named⟩).imp
      fun ends pair both => (fields both.1 both.2).2

/-- A rewritten expression visits the tuples of a chain that joins the queries of the groups, and
its variable is no variable of the expression. -/
theorem exists_chained : ∃ tuple source result,
    query = .flwr [⟨tuple, source⟩] [] none result ∧ tuple ∉ flwr.toQuery.names ∧
      List.Forall₂ (fun group tuples => groupQuery (plan.bindingsOf group)
          (plan.conditionsOf group) (plan.keys.fields.filter (·.group = group)) = .ok tuples)
        (List.range plan.grouping.count) source.chained ∧
      List.Forall₂ (LinksGroup (flwr.crossings plan.grouping) plan.groupFields)
        (List.range' 1 (plan.grouping.count - 1)) source.chainTags := by
  obtain ⟨tuple, first, stages, new, _, firstPlanned, planned, same⟩ := rewrites.chain
  obtain ⟨_, several, _⟩ := planGroups_ok rewrites.groups
  have firstGroup : List.range plan.grouping.count =
      0 :: List.range' 1 (plan.grouping.count - 1) := by
    obtain ⟨others, size⟩ := Nat.exists_eq_add_of_le' several
    rw [size, List.range_eq_range', List.range'_succ]
    rfl
  obtain ⟨_, _, isFor⟩ := groupQuery_ok firstPlanned
  have single : first.chained = [first] ∧ first.chainTags = [] := by
    rw [isFor]
    exact ⟨rfl, rfl⟩
  refine ⟨tuple, joinChain first stages, _, same, ?_, ?_, ?_⟩
  · rw [Flwr.toQuery, Query.names, rewrites.lets, Binding.namesOf, List.append_nil]
    exact new
  · rw [chained_joinChain, single.1, firstGroup]
    refine .cons firstPlanned ?_
    show List.Forall₂ _ _ (stages.map (·.1))
    rw [List.forall₂_map_right_iff]
    exact planned.imp fun added stage both => both.1
  · rw [chainTags_joinChain, single.2, List.nil_append, List.forall₂_map_right_iff]
    exact planned.imp fun added stage both => rewrites.linksGroup both.2

/-- The tuple variable is no variable of the expression, and the tuples come from a chain of
joins. -/
theorem exists_isJoinChain : ∃ tuple source result,
    query = .flwr [⟨tuple, source⟩] [] none result ∧ tuple ∉ flwr.toQuery.names ∧
      source.IsJoinChain flwr plan.grouping plan.groupFields := by
  obtain ⟨tuple, source, result, same, new, planned, links⟩ := rewrites.exists_chained
  obtain ⟨_, several, _⟩ := planGroups_ok rewrites.groups
  have areParents := rewrites.areParents
  refine ⟨tuple, source, result, same, new, several, ?_, links, ?_, ?_⟩
  · rw [← rewrites.bindings]
    exact planned.imp fun group tuples planned => returnsTuples_of_groupQuery planned
  · exact nodup_fieldsBefore areParents rewrites.sound_bindings plan.grouping.count
  · intro ends listed
    exact placed_of_mem_crossings (rewrites.bindings ▸ areParents) listed

end Plan.Rewrites

end JoinPlan

/-- **Rewritten expressions are chains of joins.**  What replaces a `for` expression visits the
tuples of a chain of joins for its groups, under a variable that does not occur in the expression
and without any further condition.  An expression that is not replaced has been rejected by one of
the checks or when its joins were planned, and never because there is no group, because a group is
empty, or because a condition is left over. -/
theorem Flwr.toJoins_isJoinChain (flwr : Flwr) :
    (∀ query, flwr.toJoins = .ok query →
      ∃ parents tuple source result fields,
        checkSources flwr = .ok parents ∧
        query = .flwr [⟨tuple, source⟩] [] none result ∧
        tuple ∉ flwr.toQuery.names ∧
        source.IsJoinChain flwr (.ofParents parents) fields) ∧
    ∀ rejection, flwr.toJoins = .error rejection →
      rejection.phase ∈ [Phase.checkFor, .checkWhere, .checkReturn, .optimize] ∧
        rejection.reason ≠ "no groups" ∧ rejection.reason ≠ "empty group" := by
  constructor
  · intro query rewritten
    obtain ⟨plan, rewrites⟩ := toJoins_ok rewritten
    obtain ⟨tuple, source, result, same, new, chain⟩ := rewrites.exists_isJoinChain
    exact ⟨plan.parents, tuple, source, result, plan.groupFields, rewrites.sources, same, new,
      chain⟩
  · intro rejection rejected
    have reasons := toJoins_error rejected
    cases rejection <;> simp [Rejection.phase, Rejection.reason] at reasons ⊢

/-- Three groups, of which the last is linked to both others and the first by one path twice; and
the same with a side that reaches attributes. -/
theorem Flwr.toJoins_isJoinChain_threeGroups :
    let source := fun name => Query.document ⟨name, .child, .wildcard⟩
    let key := fun name => Query.step (.reference name) .child (.tag "k")
    let flwr : Flwr :=
      { bindings := [⟨"a", source "f"⟩, ⟨"b", source "g"⟩, ⟨"c", source "h"⟩]
        lets := []
        condition := some (.and (.valueEq (key "b") (.reference "c"))
          (.and (.valueEq (.parenthesized (key "b")) (key "a")) (.valueEq (key "c") (key "a"))))
        result := .reference "a" }
    let attributes : Condition :=
      .valueEq (.step (.reference "a") .child (.attribute "k")) (.reference "b")
    (∃ query parents tuple source result fields,
      flwr.toJoins = .ok query ∧ checkSources flwr = .ok parents ∧
        query = .flwr [⟨tuple, source⟩] [] none result ∧ tuple ∉ flwr.toQuery.names ∧
        source.IsJoinChain flwr (.ofParents parents) fields) ∧
    ∃ rejection, { flwr with condition := some attributes }.toJoins = .error rejection ∧
      rejection.phase ∈ [Phase.checkFor, .checkWhere, .checkReturn, .optimize] := by
  intro source key flwr attributes
  obtain ⟨query, rewritten⟩ : ∃ query, flwr.toJoins = .ok query :=
    exists_of_isOk (by decide +kernel)
  obtain ⟨parents, tuple, chain, result, fields, shape⟩ :=
    (Flwr.toJoins_isJoinChain flwr).1 query rewritten
  have rejected : { flwr with condition := some attributes }.toJoins = .error .attributeKey := rfl
  refine ⟨⟨query, parents, tuple, chain, result, fields, rewritten, shape⟩, _, rejected, ?_⟩
  exact ((Flwr.toJoins_isJoinChain _).2 _ rejected).1

end TreeQuery
