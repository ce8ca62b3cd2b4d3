import TreeQuery.JoinPlan.Optimization
import TreeQuery.Proofs.JoinPlan.Chain
import TreeQuery.Proofs.JoinPlan.Results
import TreeQuery.Proofs.JoinPlan.Sides

/-!
# Joins for a `for` expression

An eligible `for` expression and the expression over joined tuples that replaces it end
alike, provided that the roots of the expression can be evaluated and that the sides of
equalities between groups are elements and texts: with the same failure, or with sequences
of the same kinds, value keys and string values, item by item (`Flwr.toJoins_sound`).

The two conditions cannot be dropped.  A `for` expression does not evaluate the roots of
later groups if an earlier one has no tuples, while a join evaluates all its inputs; and an
attribute or a document that is copied into a key field is no longer one there.
-/

set_option autoImplicit false

namespace TreeQuery

open Evaluation JoinPlan

variable {library : Library}

namespace JoinPlan

/-! ## Plans of rewritten expressions -/

theorem forall₂_of_mapM {α β ε : Type} {f : α → Except ε β} : {members : List α} →
    {results : List β} → members.mapM f = .ok results →
      List.Forall₂ (fun member result => f member = .ok result) members results
  | [], results, run => by
      obtain rfl : [] = results := Except.ok.inj run
      exact .nil
  | member :: rest, results, run => by
      rw [List.mapM_cons] at run
      obtain ⟨result, first, run⟩ := bind_eq_ok run
      obtain ⟨others, later, run⟩ := bind_eq_ok run
      obtain rfl : result :: others = results := Except.ok.inj run
      exact .cons first (forall₂_of_mapM later)

/-- The plan that a `for` expression has been rewritten by. -/
structure Plan.Rewrites (plan : Plan) (flwr : Flwr) (query : Query) : Prop where
  bindings : plan.bindings = flwr.bindings
  lets : flwr.lets = []
  sources : checkSources flwr = .ok plan.parents
  condition : checkCondition flwr = .ok plan.equalities
  result : checkResult flwr.result = .ok ()
  groups : planGroups plan.parents = .ok plan.grouping
  sound : plan.keys.Sound flwr.names (IsSide plan.grouping plan.equalities)
  chain : ∃ tuple first stages, tuple ∉ flwr.names ∧ (∃ used, tuple = freshName used tupleName) ∧
    groupQuery (plan.bindingsOf 0) (plan.conditionsOf 0)
      (plan.keys.fields.filter (·.group = 0)) = .ok first ∧
    List.Forall₂ (fun added (stage : Query × List (String × String)) =>
        groupQuery (plan.bindingsOf added) (plan.conditionsOf added)
          (plan.keys.fields.filter (·.group = added)) = .ok stage.1 ∧
        List.Forall₂ plan.keys.NamesBoth
          ((crossEqualities plan.grouping plan.equalities).filterMap (·.orient added)) stage.2)
      (List.range' 1 (plan.grouping.count - 1)) stages ∧
    query = .flwr [⟨tuple, joinChain first stages⟩] [] none
      (project tuple (flwr.bindings.map (·.name)) flwr.result)

/-- Every equality between groups is taken up by some join. -/
theorem Plan.leftovers_eq_nil {plan : Plan} {leftovers : List CrossEquality}
    (areParents : AreParents plan.bindings plan.parents)
    (describes : ∀ equality ∈ plan.equalities, equality.Describes plan.bindings)
    (left : ∀ cross ∈ leftovers, cross ∈ crossEqualities plan.grouping plan.equalities ∧
      ∀ added ∈ List.range' 1 (plan.grouping.count - 1), cross.orient added = none) :
    leftovers = [] := by
  refine List.eq_nil_iff_forall_not_mem.mpr fun cross member => ?_
  obtain ⟨listed, unlinked⟩ := left cross member
  obtain ⟨equality, inList, owner, query, other, otherQuery, leftEq, rightEq, different, rfl⟩ :=
    mem_crossEqualities.mp listed
  have owns : owner ∈ equality.owners ∧ other ∈ equality.owners := by
    rw [Equality.owners, leftEq, rightEq]
    exact ⟨List.mem_cons_self, List.mem_cons_of_mem _ List.mem_cons_self⟩
  have ownerBelow := Plan.group_owner_lt areParents describes inList owns.1
  have otherBelow := Plan.group_owner_lt areParents describes inList owns.2
  rcases Nat.lt_or_gt_of_ne different with less | greater
  · have here := unlinked (plan.grouping.group other) (List.mem_range'_1.mpr (by omega))
    simp [CrossEquality.orient, less] at here
  · have here := unlinked (plan.grouping.group owner) (List.mem_range'_1.mpr (by omega))
    simp [CrossEquality.orient, greater, different.symm] at here

/-- The initial state of planning. -/
theorem sound_empty (names : List String) (IsSide : Endpoint → Prop) :
    Keys.Sound names IsSide ⟨names, []⟩ where
  reserves _ := id
  inUse := nofun
  nodup := List.nodup_nil
  fresh := nofun
  sides := nofun
  resembles := nofun

/-- **A rewritten expression has been rewritten by a plan.** -/
theorem toJoins_ok {flwr : Flwr} {query : Query} (rewritten : flwr.toJoins = .ok query) :
    ∃ plan : Plan, plan.Rewrites flwr query := by
  rw [Flwr.toJoins] at rewritten
  obtain ⟨parents, sources, rewritten⟩ := bind_eq_ok rewritten
  obtain ⟨equalities, condition, rewritten⟩ := bind_eq_ok rewritten
  obtain ⟨_, result, rewritten⟩ := bind_eq_ok rewritten
  obtain ⟨grouping, groups, rewritten⟩ := bind_eq_ok rewritten
  obtain ⟨lets, areParents⟩ := checkSources_ok sources
  obtain ⟨rfl, several, contiguous⟩ := planGroups_ok groups
  have describes := describes_of_checkCondition condition
  rw [assemble] at rewritten
  obtain ⟨⟨⟨joins, leftovers⟩, keys⟩, planned, rewritten⟩ := bind_eq_ok rewritten
  obtain ⟨queries, planQueries, rewritten⟩ := bind_eq_ok rewritten
  obtain ⟨sound, _, left, named⟩ :=
    planJoins_ok (sound_empty _ _) (areSides_crossEqualities _ _) planned
  let plan : Plan := ⟨flwr.bindings, parents, equalities, keys⟩
  obtain rfl : leftovers = [] := plan.leftovers_eq_nil areParents describes left
  have stages := forall₂_of_mapM planQueries
  have size : (Grouping.ofParents parents).count =
      (Grouping.ofParents parents).count - 1 + 1 := by omega
  rw [size, List.range_eq_range', List.range'_succ] at stages
  cases stages with
  | @cons _ first _ others firstPlanned othersPlanned =>
      obtain rfl := Except.ok.inj rewritten
      refine ⟨plan, rfl, lets, sources, condition, result, groups, sound, ?_⟩
      refine ⟨freshName keys.names tupleName, first, others.zip joins, fun inUse => ?_,
        ⟨keys.names, rfl⟩, firstPlanned, forall₂_zip_right othersPlanned named, rfl⟩
      exact freshName_not_mem _ _ (sound.reserves _ inUse)

section

variable {plan : Plan} {flwr : Flwr} {query : Query} (rewrites : plan.Rewrites flwr query)
include rewrites

theorem Plan.Rewrites.areParents : AreParents plan.bindings plan.parents :=
  rewrites.bindings ▸ (checkSources_ok rewrites.sources).2

theorem Plan.Rewrites.describes : ∀ equality ∈ plan.equalities, equality.Describes plan.bindings :=
  rewrites.bindings ▸ describes_of_checkCondition rewrites.condition

theorem Plan.Rewrites.contiguous : plan.grouping.isContiguous = true :=
  (planGroups_ok rewrites.groups).2.2

/-- A root that can be evaluated is a walk off what is bound. -/
theorem Plan.Rewrites.isWalk_root {source : Query}
    (member : source ∈ Binding.rootSources [] plan.bindings) {scope : Scope}
    {before after : Arena} {items : List Item}
    (run : source.evaluate library scope before = .ok items after) :
    source.IsWalk library scope.Binds := by
  obtain ⟨binding, listed, rfl⟩ := exists_of_mem_rootSources _ member
  obtain ⟨i, inside, rfl⟩ := List.mem_iff_getElem.mp listed
  exact (rewrites.areParents.source (List.getElem?_eq_getElem inside)).isWalk run

end

end JoinPlan

/-! ## Promises -/

namespace JoinPlan

theorem name_mem_namesOf {binding : Binding} : {bindings : List Binding} →
    binding ∈ bindings → binding.name ∈ Binding.namesOf bindings
  | ⟨name, source⟩ :: rest, member => by
      rw [Binding.namesOf]
      rcases List.mem_cons.mp member with rfl | member
      · exact List.mem_append_left _ List.mem_cons_self
      · exact List.mem_append_right _ (name_mem_namesOf member)

/-- The tags of key fields are different from the names of the bindings. -/
theorem Plan.Rewrites.sound_bindings {plan : Plan} {flwr : Flwr} {query : Query}
    (rewrites : plan.Rewrites flwr query) : plan.keys.Sound (plan.bindings.map (·.name))
      (IsSide plan.grouping plan.equalities) := by
  refine rewrites.sound.mono fun name listed => ?_
  rw [rewrites.bindings] at listed
  obtain ⟨binding, member, rfl⟩ := List.mem_map.mp listed
  rw [Flwr.names, List.append_assoc]
  exact List.mem_append_left _ (name_mem_namesOf member)

/-- The plan of a rewritten expression keeps its promises. -/
theorem Plan.Rewrites.prepared {plan : Plan} {flwr : Flwr} {query : Query} {scope : Scope}
    {arena : Arena} (rewrites : plan.Rewrites flwr query) (documents : library.WellFormed)
    (formed : arena.WellFormed) (existing : scope.Exist (library.view arena))
    (roots : flwr.RootsEvaluate library scope arena)
    (content : flwr.ComparesContent library scope arena) :
    plan.Prepared library scope arena := by
  have rootWalks : ∀ source ∈ Binding.rootSources [] plan.bindings,
      source.IsWalk library scope.Binds := by
    intro source member
    obtain ⟨items, later, run⟩ := roots source (rewrites.bindings ▸ member)
    exact rewrites.isWalk_root member run
  have sound := rewrites.sound_bindings
  obtain ⟨bindings, parents, equalities, keys⟩ := plan
  obtain ⟨rfl, _, sources, condition, _, groups, _, _⟩ := rewrites
  obtain ⟨_, areParents⟩ := checkSources_ok sources
  obtain ⟨_, _, contiguous⟩ := planGroups_ok groups
  have describes := describes_of_checkCondition condition
  refine ⟨documents, formed, existing, areParents, contiguous, rootWalks, describes, sound, ?_⟩
  intro endpoint isSide row member
  obtain ⟨member, passes⟩ := List.mem_filter.mp member
  have binds : ∀ name ∈ (Plan.bindingsOf ⟨flwr.bindings, parents, equalities, keys⟩
      endpoint.group).map (·.name), Scope.Binds (row ++ scope) name := by
    intro name listed
    refine Scope.binds_of_mem ?_
    rw [List.map_append]
    exact List.mem_append_left _ ((Binding.mem_names_row member).mpr listed)
  have walks : Binding.AreWalks library (Scope.Binds ([] ++ scope))
      (Plan.bindingsOf ⟨flwr.bindings, parents, equalities, keys⟩ endpoint.group) :=
    (areWalks_bindingsOf areParents contiguous rootWalks).mono _ fun _ isBound => isBound.1
  obtain ⟨name, bound, owned⟩ := owned_of_isSide areParents describes isSide
  have walk : endpoint.query.evaluate library (row ++ scope) arena = .ok _ arena :=
    endpoint.query.evaluate_walk
      (isWalk_of_pathOwner? (binds name bound) endpoint.query owned)
  have tests : Condition.holdsIfPresent library (Condition.conjunction
      (Plan.conditionsOf ⟨flwr.bindings, parents, equalities, keys⟩ endpoint.group))
        (row ++ scope) arena = .ok _ arena :=
    Condition.holds_conjunction fun condition listed =>
      (isTest_of_mem_conditionsOf areParents describes listed).mono binds condition
  rw [passes] at tests
  exact content parents equalities _ sources condition groups endpoint isSide (row ++ scope)
    (Binding.isTuple_of_mem_rows _ walks member) tests _ _ walk

/-! ## The two evaluations -/

namespace Plan.Prepared

variable {plan : Plan} {scope : Scope} {arena : Arena}
variable (prepared : plan.Prepared library scope arena)
include prepared

theorem bindingsBefore_count : plan.bindingsBefore plan.grouping.count = plan.bindings :=
  Grouping.bindingsBefore_count prepared.areParents prepared.contiguous

theorem joinedRows_count : plan.joinedRows (library.view arena) scope plan.grouping.count =
    (Binding.rows (library.view arena) scope plan.bindings []).filter fun row =>
      plan.equalities.all (·.source.test (library.view arena) (row ++ scope)) := by
  rw [Plan.joinedRows, prepared.bindingsBefore_count,
    equalitiesBefore_count prepared.areParents prepared.describes]

theorem mem_rows_of_mem_joinedRows {row : Scope}
    (member : row ∈ plan.joinedRows (library.view arena) scope plan.grouping.count) :
    row ∈ Binding.rows (library.view arena) scope plan.bindings [] := by
  rw [prepared.joinedRows_count] at member
  exact List.mem_of_mem_filter member

/-- The expression visits the rows that satisfy its equalities. -/
theorem evaluate_eq {condition : Option Condition} {result : Query}
    (holds : ∀ {scope : Scope} {arena : Arena},
      (∀ binding ∈ plan.bindings, scope.Binds binding.name) →
        Condition.holdsIfPresent library condition scope arena = .ok
          (plan.equalities.all (·.source.test (library.view arena) scope)) arena) :
    (Query.flwr plan.bindings [] condition result).evaluate library scope arena =
      collect (fun row => result.evaluate library (row ++ scope))
        (plan.joinedRows (library.view arena) scope plan.grouping.count) arena := by
  have walks := areWalks_bindingsBefore prepared.areParents prepared.contiguous prepared.roots
    plan.grouping.count
  rw [← Plan.grouping, ← Plan.bindingsBefore, prepared.bindingsBefore_count] at walks
  rw [prepared.joinedRows_count]
  refine Query.evaluate_flwr_eq prepared.documents prepared.formed walks prepared.existing ?_ .refl
  intro row member later develops
  obtain ⟨still, extend⟩ := develops.extends_wellFormed prepared.formed
  have viewExtend := prepared.documents.extends prepared.formed still extend
  have inside := Binding.exist_of_mem_rows prepared.documents viewExtend plan.bindings
    (show Scope.Exist _ ([] ++ scope) from prepared.existing) member
  rw [holds fun binding listed => ?_]
  · congr 1
    refine List.all_congr rfl fun equality => ?_
    exact equality.source.test_extend prepared.documents viewExtend inside
  · refine Scope.binds_of_mem ?_
    rw [List.map_append]
    exact List.mem_append_left _
      ((Binding.mem_names_row member).mpr (List.mem_map_of_mem listed))

/-- A tuple with the fields of a row stands for the row. -/
theorem standsFor {world : World library} (grows : (World.identity prepared.documents
      prepared.formed).Grows world) {row : Scope} {tuple : String} {item : Item}
    (member : row ∈ plan.joinedRows (library.view arena) scope plan.grouping.count)
    (reads : item.Reads world.viewRight (tupleFragment (library.view arena) (row ++ scope)
      (plan.fieldsBefore plan.grouping.count))) :
    StandsFor world (plan.bindings.map (·.name)) scope row tuple item := by
  have member := prepared.mem_rows_of_mem_joinedRows member
  have formed := prepared.documents.view prepared.formed
  have inside := Binding.exist_of_mem_rows prepared.documents (.refl formed) plan.bindings
    (show Scope.Exist _ ([] ++ scope) from prepared.existing) member
  refine ⟨fun name listed => ?_, fun name new => ?_, ?_, reads.exists_view⟩
  · have sources : ∀ binding ∈ plan.bindings, IsSource binding.source := by
      intro binding listed
      obtain ⟨i, bound, rfl⟩ := List.mem_iff_getElem.mp listed
      exact prepared.areParents.source (List.getElem?_eq_getElem bound)
    obtain ⟨node, found, content⟩ := Binding.lookup_row formed sources member listed
    have found : (row ++ scope).lookup name = some [node] := by
      rw [List.lookup_append, found, Option.some_or]
    have field : (name, Query.reference name) ∈ plan.fieldsBefore plan.grouping.count := by
      rw [← prepared.bindingsBefore_count, Plan.bindingsBefore, Grouping.bindingsBefore,
        List.map_flatMap, List.mem_flatMap] at listed
      obtain ⟨group, below, listed⟩ := listed
      obtain ⟨binding, bound, rfl⟩ := List.mem_map.mp listed
      exact mem_fieldsBefore.mpr ⟨group, List.mem_range.mp below,
        List.mem_append_left _ (List.mem_map_of_mem bound)⟩
    obtain ⟨copy, selected, alike⟩ := selectAlong_fieldPath formed world.viewRight_wellFormed reads
      (Plan.nodup_fieldsBefore prepared.areParents prepared.sound _) field
      (by rw [Query.walk, found]; rfl) content (inside name [node] found node List.mem_cons_self)
    refine ⟨node, copy, found, selected, ?_⟩
    exact alike.extend grows.viewLeft (.refl world.viewRight_wellFormed)
  · have absent : name ∉ row.map (·.1) := by
      rwa [Binding.mem_names_row member]
    rw [List.lookup_append, Scope.lookup_eq_none absent, Option.none_or]
  · intro name items found node listed
    exact grows.same ⟨prepared.existing name items found node listed, rfl⟩

end Plan.Prepared

/-- The expression over tuples visits what its source yields. -/
theorem evaluate_overTuples (source result : Query) (tuple : String) {scope : Scope}
    {before after : Arena} {items : List Item}
    (run : source.evaluate library scope before = .ok items after) :
    (Query.flwr [⟨tuple, source⟩] [] none result).evaluate library scope before =
      collect (fun item => result.evaluate library ((tuple, [item]) :: scope)) items after := by
  rw [Query.evaluate, Binding.collectTuples, bind_ok run]
  refine congrFun (congrArg (collect · items) (funext fun item => ?_)) after
  rw [Binding.collectTuples, Binding.bindInOrder, Condition.holdsIfPresent, pure_bind]
  rfl

/-- **A rewritten expression and its plan end alike.** -/
theorem Plan.Rewrites.simulates {plan : Plan} {flwr : Flwr} {query : Query} {scope : Scope}
    {arena : Arena} (rewrites : plan.Rewrites flwr query)
    (prepared : plan.Prepared library scope arena) :
    Simulates (World.identity prepared.documents prepared.formed)
      (flwr.toQuery.evaluate library scope) (query.evaluate library scope)
      (resultLevel (flwr.bindings.map (·.name)) flwr.result).collected.Holds := by
  obtain ⟨tuple, first, stages, new, _, firstPlanned, planned, rfl⟩ := rewrites.chain
  obtain ⟨_, several, _⟩ := planGroups_ok rewrites.groups
  have base := prepared.groupQuery_yields firstPlanned
  rw [← Plan.joinedRows_one, ← Plan.fieldsBefore_one] at base
  have yields := prepared.joinChain_yields base planned
  rw [Nat.add_sub_cancel' (Nat.le_of_succ_le several)] at yields
  obtain ⟨items, later, run, reads⟩ := yields arena .refl
  have develops := (Query.evaluate_constructs library _ scope).ok run
  obtain ⟨still, extend⟩ := develops.extends_wellFormed prepared.formed
  have left : flwr.toQuery.evaluate library scope arena =
      collect (fun row => flwr.result.evaluate library (row ++ scope))
        (plan.joinedRows (library.view arena) scope plan.grouping.count) arena := by
    rw [Flwr.toQuery, rewrites.lets, ← rewrites.bindings]
    refine prepared.evaluate_eq fun binds => ?_
    exact (checkCondition_ok rewrites.condition).2 (rewrites.bindings ▸ binds)
  have right := evaluate_overTuples _ (project tuple (flwr.bindings.map (·.name)) flwr.result)
    tuple run
  let start := World.identity prepared.documents prepared.formed
  let world := start.extend prepared.formed still (.refl arena) extend
  have grows : start.Grows world := start.grows_extend prepared.formed still (.refl arena) extend
  have collected : Simulates world
      (collect (fun row => flwr.result.evaluate library (row ++ scope))
        (plan.joinedRows (library.view arena) scope plan.grouping.count))
      (collect (fun item => (project tuple (flwr.bindings.map (·.name)) flwr.result).evaluate
        library ((tuple, [item]) :: scope)) items)
      (resultLevel (flwr.bindings.map (·.name)) flwr.result).collected.Holds := by
    rw [List.forall₂_map_left_iff] at reads
    refine Simulates.collect (fun {later row item} further stands => ?_)
      ((List.forall₂_and_left _ _).mpr ⟨fun row member => member, reads⟩)
    have stands : StandsFor world (flwr.bindings.map (·.name)) scope row tuple item := by
      rw [← rewrites.bindings]
      exact prepared.standsFor grows stands.1 stands.2
    have newInResult : tuple ∉ flwr.result.names := fun listed =>
      new (List.mem_append_right _ listed)
    exact project_simulates flwr.result rewrites.result newInResult (stands.grow further)
  cases collected with
  | ok firstRun secondRun further holds =>
      exact .ok (left.trans firstRun) (right.trans secondRun) (grows.trans further) holds
  | error firstRun secondRun =>
      exact .error (left.trans firstRun) (right.trans secondRun)

end JoinPlan

/-! ## Soundness -/

/-- Two outcomes are alike: the same failure, or sequences of the same kinds, value keys and
string values, item by item. -/
def AlikeOutcomes (library : Library) : (first second : EStateM.Result Failure Arena (List Item)) →
    Prop
  | .ok items later, .ok others last =>
      List.Forall₂ (fun item other =>
        other.kind (library.view last) = item.kind (library.view later) ∧
          other.valueKey (library.view last) = item.valueKey (library.view later) ∧
          other.stringValue (library.view last) = item.stringValue (library.view later))
        items others
  | .error failure _, .error also _ => failure = also
  | _, _ => False

theorem JoinPlan.alikeOutcomes_of_simulates {world : World library} {level : Level}
    {first second : Evaluation (List Item)} (simulates : Simulates world first second level.Holds)
    (ordered : level ≠ .gathered) :
    AlikeOutcomes library (first world.left) (second world.right) := by
  cases simulates with
  | error run otherRun =>
      rw [run, otherRun]
      rfl
  | @ok _ _ later run otherRun _ holds =>
      rw [run, otherRun]
      exact (holds.copied ordered).imp fun item other alike => ⟨alike.kind,
        alike.valueKey_eq later.viewLeft_wellFormed later.viewRight_wellFormed,
        alike.stringValue_eq⟩

/-- **Joins are sound.**  If a `for` expression is rewritten, then in every scope of existing
nodes in which its roots can be evaluated, and in which the sides of equalities between
groups are elements and texts, the expression and its rewritten form have the same outcome:
both fail with the same failure, or both end with sequences whose items have the same kinds,
value keys and string values, one by one. -/
theorem Flwr.toJoins_sound (library : Library) (documents : library.Reachable) (flwr : Flwr)
    (query : Query) (rewritten : flwr.toJoins = .ok query) (scope : Scope) (arena : Arena)
    (reachable : arena.Reachable) (existing : scope.Exist (library.view arena))
    (roots : flwr.RootsEvaluate library scope arena)
    (content : flwr.ComparesContent library scope arena) :
    AlikeOutcomes library (flwr.toQuery.evaluate library scope arena)
      (query.evaluate library scope arena) := by
  obtain ⟨plan, rewrites⟩ := toJoins_ok rewritten
  have prepared := rewrites.prepared documents.wellFormed reachable.wellFormed existing roots
    content
  exact alikeOutcomes_of_simulates (rewrites.simulates prepared)
    (Level.collected_ne_gathered (resultLevel_ne_gathered _ _))

/-- Two groups of several tuples are joined on a key that is a path; a variable of the first
group ranges over items of another one.  Five pairs of tuples match. -/
theorem Flwr.toJoins_sound_dependent :
    let library : Library := fun name => .error (.unavailable name .unknown)
    let flwr : Flwr :=
      { bindings := [⟨"x", .step (.reference "left") .child (.tag "k")⟩,
          ⟨"z", .step (.reference "x") .child (.tag "m")⟩,
          ⟨"y", .step (.reference "right") .child (.tag "k")⟩]
        lets := []
        condition := some
          (.valueEq (.reference "z") (.step (.reference "y") .child (.tag "m")))
        result := .pair (.reference "z") (.reference "y") }
    let item (values : List String) : Fragment :=
      .element "k" [] (values.map fun value => .element "m" [] [.text value])
    let arena := Arena.empty
      |>.createElement "left" [item ["1", "2"], item ["2"]]
      |>.createElement "right" [item ["2"], item ["2", "3"], item ["1"]]
    let scope : Scope := [("left", [⟨.constructed, 1⟩]), ("right", [⟨.constructed, 10⟩])]
    ∃ query, flwr.toJoins = .ok query ∧
      ((flwr.toQuery.evaluate library scope).run' arena).map List.length = some 10 ∧
      AlikeOutcomes library (flwr.toQuery.evaluate library scope arena)
        (query.evaluate library scope arena) := by
  intro library flwr item arena scope
  have reachable : arena.Reachable :=
    Arena.Reachable.empty.develops (.createElement _ _ (.createElement _ _ .refl))
  have existing : scope.Exist (library.view arena) :=
    (Scope.Exist.nil.cons "right" (by decide +kernel)).cons "left" (by decide +kernel)
  have sources : Binding.rootSources [] flwr.bindings =
      [.step (.reference "left") .child (.tag "k"), .step (.reference "right") .child (.tag "k")] :=
    rfl
  have roots : flwr.RootsEvaluate library scope arena := by
    rw [Flwr.RootsEvaluate, sources, List.forall_mem_cons, List.forall_mem_singleton]
    exact ⟨⟨_, _, Query.evaluate_walk _ ⟨[⟨.constructed, 1⟩], rfl⟩⟩,
      ⟨_, _, Query.evaluate_walk _ ⟨[⟨.constructed, 10⟩], rfl⟩⟩⟩
  have documents : library.Reachable := by
    intro name document found
    simp [library] at found
  obtain ⟨query, rewritten⟩ : ∃ query, flwr.toJoins = .ok query := ⟨_, rfl⟩
  have content : flwr.ComparesContent library scope arena :=
    Flwr.comparesContent_of_sidesReachContent documents.wellFormed reachable.wellFormed
      (by decide +kernel)
  have several : ((flwr.toQuery.evaluate library scope).run' arena).map List.length = some 10 := by
    decide +kernel
  -- What follows holds of any arena and scope with these properties.
  clear_value arena scope
  exact ⟨query, rewritten, several, Flwr.toJoins_sound library documents flwr query rewritten scope
    arena reachable existing roots content⟩

end TreeQuery
