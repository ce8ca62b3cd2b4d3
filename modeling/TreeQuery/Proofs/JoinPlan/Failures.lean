import TreeQuery.Proofs.Processor
import TreeQuery.Proofs.Query.Failures

/-!
# Failures of joins

A `for` expression evaluates the sources of a later group only when the earlier groups have a
tuple, while a join evaluates both inputs.  So a root that cannot be evaluated, behind an
expression without tuples, is no failure of the expression but one of the joins that replace it.

Nothing else makes the joins fail, provided that the result refers to bound variables only or
that the joins have the tuples of the expression: where an expression has a value, its joins
have one exactly if every root can be evaluated (`Flwr.toJoins_succeeds_iff`).
-/

set_option autoImplicit false

namespace TreeQuery

open Evaluation JoinPlan

variable {library : Library} {failure : Failure} {bound : String → Prop}

/-! ## Lists of queries -/

theorem Query.not_mayFail_sequence {queries : List Query}
    (all : ∀ query ∈ queries, ¬query.MayFail library failure bound) {query : Query}
    (made : Query.sequence queries = some query) : ¬query.MayFail library failure bound :=
  leftNested_induction (fun left right fails => fails.elim left right) all made

theorem Condition.not_mayFail_conjunction {conditions : List Condition}
    (all : ∀ condition ∈ conditions, ¬condition.MayFail library failure bound) :
    ¬Condition.MayFailIfPresent library failure (Condition.conjunction conditions) bound := by
  cases made : Condition.conjunction conditions with
  | none => exact id
  | some condition =>
      show ¬condition.MayFail library failure bound
      exact leftNested_induction (fun left right fails => fails.elim left right) all made

namespace JoinPlan

/-! ## Tuples -/

/-- Tuples of walks under tests can be computed. -/
theorem not_mayFail_groupQuery {bindings : List Binding} {conditions : List Condition}
    {keys : List KeyField} {query : Query} (walks : Binding.AreWalks library bound bindings)
    (tests : ∀ condition ∈ conditions, condition.IsTest library (· ∈ bindings.map (·.name)))
    (keyWalks : ∀ key ∈ keys, key.query.IsWalk library (· ∈ bindings.map (·.name)))
    (planned : groupQuery bindings conditions keys = .ok query) :
    ¬query.MayFail library failure bound := by
  intro fails
  rw [groupQuery] at planned
  split at planned
  · cases planned
  · rename_i body made
    obtain rfl := Except.ok.inj planned
    rw [Query.MayFail] at fails
    obtain ⟨inner, binds, fails⟩ := Binding.AreWalks.of_mayFail bindings walks fails
    have binds : ∀ name, name ∈ bindings.map (·.name) → inner name :=
      fun name listed => (binds name).mpr (.inl listed)
    rcases fails with fails | fails
    · refine Condition.not_mayFail_conjunction (fun condition listed => ?_) fails
      exact Condition.IsTest.not_mayFail condition ((tests condition listed).mono binds condition)
    · refine Query.not_mayFail_sequence (List.forall_mem_append.mpr ⟨?_, ?_⟩) made fails
      · refine List.forall_mem_map.mpr fun binding listed fails => ?_
        exact fails.1 (binds _ (List.mem_map_of_mem listed))
      · refine List.forall_mem_map.mpr fun key listed => ?_
        exact Query.IsWalk.not_mayFail key.query ((keyWalks key listed).mono binds key.query)

theorem not_mayFail_joinChain : {stages : List (Query × List (String × String))} →
    {first : Query} → ¬first.MayFail library failure bound →
      (∀ stage ∈ stages, ¬stage.1.MayFail library failure bound) →
        ¬(joinChain first stages).MayFail library failure bound
  | [], _, safe, _ => safe
  | (query, tags) :: rest, first, safe, stages => by
      obtain ⟨safeQuery, safeRest⟩ := List.forall_mem_cons.mp stages
      rw [joinChain, List.foldl_cons]
      refine not_mayFail_joinChain (fun fails => ?_) safeRest
      rcases fails with ⟨differ, _⟩ | fails | fails
      · exact differ (by rw [List.length_map, List.length_map])
      · exact safe fails
      · exact safeQuery fails

/-- A result over tuples can be computed if its other variables are bound. -/
theorem not_mayFail_project {tuple : String} {boundNames : List String} : (result : Query) →
    checkResult result = .ok () →
      (∀ name ∈ result.names, name ∈ boundNames ∨ bound name) →
        ¬(project tuple boundNames result).MayFail library failure
          fun other => other = tuple ∨ bound other
  | .reference name, _, binds, fails => by
      rw [project] at fails
      split at fails
      · exact fails.1 (.inl rfl)
      · rename_i unlisted
        have isBound := binds name (List.mem_singleton.mpr rfl)
        refine fails.1 (.inr (isBound.resolve_left fun listed => unlisted ?_))
        exact List.contains_iff_mem.mpr listed
  | .parenthesized inner, checked, binds, fails => by
      rw [checkResult] at checked
      rw [Query.names] at binds
      exact not_mayFail_project inner checked binds fails
  | .element name body, checked, binds, fails => by
      rw [checkResult] at checked
      rw [Query.names] at binds
      exact not_mayFail_project body checked binds fails
  | .pair left right, checked, binds, fails => by
      rw [checkResult] at checked
      obtain ⟨_, checkedLeft, checkedRight⟩ := bind_eq_ok checked
      rw [Query.names, List.forall_mem_append] at binds
      exact fails.elim (not_mayFail_project left checkedLeft binds.1)
        (not_mayFail_project right checkedRight binds.2)
  | .step base axis path, checked, binds, fails => by
      rw [checkResult] at checked
      rw [Query.names] at binds
      split at checked
      · cases checked
      · split at checked
        · cases checked
        · exact not_mayFail_project base checked binds fails

/-! ## Joins of tuples -/

variable {scope : Scope} {before after : Arena} {items : List Item}

theorem exists_evaluate_of_join {left right : Query} {leftTags rightTags : List String}
    (run : (Query.join left right leftTags rightTags).evaluate library scope before =
      .ok items after) :
    (∃ start items later, left.evaluate library scope start = .ok items later) ∧
      ∃ start items later, right.evaluate library scope start = .ok items later := by
  rw [Query.evaluate, join] at run
  split at run
  · obtain ⟨found, middle, leftRun, run⟩ := of_bind_ok run
    obtain ⟨others, later, rightRun, _⟩ := of_bind_ok run
    exact ⟨⟨_, _, _, leftRun⟩, _, _, _, rightRun⟩
  · exact nomatch run

/-- A chain of joins evaluates all of its members. -/
theorem exists_evaluate_of_joinChain : {stages : List (Query × List (String × String))} →
    {first : Query} → {before after : Arena} → {items : List Item} →
      (joinChain first stages).evaluate library scope before = .ok items after →
        (∃ start items later, first.evaluate library scope start = .ok items later) ∧
          ∀ stage ∈ stages, ∃ start items later,
            stage.1.evaluate library scope start = .ok items later
  | [], _, _, _, _, run => ⟨⟨_, _, _, run⟩, nofun⟩
  | (query, tags) :: rest, first, _, _, _, run => by
      rw [joinChain, List.foldl_cons] at run
      obtain ⟨⟨_, _, _, joined⟩, others⟩ := exists_evaluate_of_joinChain run
      obtain ⟨evaluated, also⟩ := exists_evaluate_of_join joined
      exact ⟨evaluated, List.forall_mem_cons.mpr ⟨also, others⟩⟩

/-- The tuples of a group evaluate its first source. -/
theorem exists_evaluate_of_groupQuery {name : String} {source : Query} {rest : List Binding}
    {conditions : List Condition} {keys : List KeyField} {query : Query}
    (planned : groupQuery (⟨name, source⟩ :: rest) conditions keys = .ok query)
    (run : query.evaluate library scope before = .ok items after) :
    ∃ items later, source.evaluate library scope before = .ok items later := by
  rw [groupQuery] at planned
  split at planned
  · cases planned
  · obtain rfl := Except.ok.inj planned
    rw [Query.evaluate, Binding.collectTuples] at run
    obtain ⟨found, middle, sourceRun, _⟩ := of_bind_ok run
    exact ⟨found, middle, sourceRun⟩

/-! ## Joins for a `for` expression -/

section

variable {plan : Plan} {flwr : Flwr} {query : Query} (rewrites : plan.Rewrites flwr query)
include rewrites

/-- The queries for tuples can be computed if the roots of the expression can. -/
theorem Plan.Rewrites.not_mayFail_tuples {group : Nat} {tuples : Query}
    (roots : ∀ source ∈ Binding.rootSources [] plan.bindings, source.IsWalk library scope.Binds)
    (planned : groupQuery (plan.bindingsOf group) (plan.conditionsOf group)
      (plan.keys.fields.filter (·.group = group)) = .ok tuples) :
    ¬tuples.MayFail library failure scope.Binds := by
  refine not_mayFail_groupQuery ?_ ?_ ?_ planned
  · exact (areWalks_bindingsOf rewrites.areParents rewrites.contiguous roots).mono _
      fun _ isBound => isBound.1
  · exact fun condition listed =>
      Plan.isTest_of_mem_conditionsOf rewrites.areParents rewrites.describes listed
  · intro key member
    obtain ⟨listed, here⟩ := List.mem_filter.mp member
    obtain ⟨name, isBound, owned⟩ := Plan.owned_of_isSide rewrites.areParents rewrites.describes
      (rewrites.sound.sides key listed)
    rw [of_decide_eq_true here] at isBound
    exact isWalk_of_pathOwner? isBound key.query owned

/-- The joins can be computed if the roots of the expression can and the variables of its
result are bound. -/
theorem Plan.Rewrites.not_mayFail
    (roots : ∀ source ∈ Binding.rootSources [] plan.bindings, source.IsWalk library scope.Binds)
    (binds : ∀ name ∈ flwr.result.names,
      name ∈ flwr.bindings.map (·.name) ∨ scope.Binds name) :
    ¬query.MayFail library failure scope.Binds := by
  obtain ⟨tuple, first, stages, _, _, firstPlanned, planned, rfl⟩ := rewrites.chain
  have chain : ¬(joinChain first stages).MayFail library failure scope.Binds := by
    refine not_mayFail_joinChain (rewrites.not_mayFail_tuples roots firstPlanned) ?_
    intro stage member
    obtain ⟨_, _, tuplesPlanned, _⟩ := (Gathered.of_forall₂ planned).right stage member
    exact rewrites.not_mayFail_tuples roots tuplesPlanned
  rintro (fails | fails | fails)
  · exact chain fails
  · exact fails
  · exact not_mayFail_project flwr.result rewrites.result binds fails

/-- Joins that can be evaluated evaluate all roots of the expression. -/
theorem Plan.Rewrites.isWalk_of_evaluate
    (run : query.evaluate library scope before = .ok items after) :
    ∀ source ∈ Binding.rootSources [] plan.bindings, source.IsWalk library scope.Binds := by
  intro source member
  obtain ⟨tuple, first, stages, _, _, firstPlanned, planned, rfl⟩ := rewrites.chain
  rw [Query.evaluate, Binding.collectTuples] at run
  obtain ⟨_, _, chainRun, _⟩ := of_bind_ok run
  obtain ⟨firstRun, stageRuns⟩ := exists_evaluate_of_joinChain chainRun
  obtain ⟨group, below, name, rest, bindings⟩ :=
    exists_group_of_mem_rootSources rewrites.areParents member
  have evaluated : ∃ start items later, source.evaluate library scope start = .ok items later := by
    have ofTuples : ∀ {tuples : Query},
        groupQuery (plan.bindingsOf group) (plan.conditionsOf group)
          (plan.keys.fields.filter (·.group = group)) = .ok tuples →
        (∃ start items later, tuples.evaluate library scope start = .ok items later) →
          ∃ start items later, source.evaluate library scope start = .ok items later := by
      rintro tuples tuplesPlanned ⟨start, _, _, tuplesRun⟩
      rw [Plan.bindingsOf, Plan.grouping, bindings] at tuplesPlanned
      exact ⟨start, exists_evaluate_of_groupQuery tuplesPlanned tuplesRun⟩
    cases group with
    | zero => exact ofTuples firstPlanned firstRun
    | succ group =>
        have added : group + 1 ∈ List.range' 1 (plan.grouping.count - 1) :=
          List.mem_range'_1.mpr ⟨Nat.le_add_left _ _, by rw [Plan.grouping]; omega⟩
        obtain ⟨stage, listed, tuplesPlanned, _⟩ := (Gathered.of_forall₂ planned).left _ added
        exact ofTuples tuplesPlanned (stageRuns stage listed)
  obtain ⟨_, _, _, sourceRun⟩ := evaluated
  exact rewrites.isWalk_root member sourceRun

end

end JoinPlan

/-! ## Failures -/

/-- The variables of the result are bound, by the expression or around it. -/
def Flwr.ResultIsBound (flwr : Flwr) (scope : Scope) : Prop :=
  ∀ name ∈ flwr.result.names, name ∈ flwr.bindings.map (·.name) ∨ scope.Binds name

/-- **Joins fail only with roots.**  If a `for` expression is rewritten and has a value in a
scope of existing nodes, and if the variables of its result are bound or the sides of equalities
between groups are elements and texts, then its rewritten form has a value there exactly if
every root can be evaluated. -/
theorem Flwr.toJoins_succeeds_iff (library : Library) (documents : library.Reachable)
    (flwr : Flwr) (query : Query) (rewritten : flwr.toJoins = .ok query) (scope : Scope)
    (arena : Arena) (reachable : arena.Reachable) (existing : scope.Exist (library.view arena))
    (hasValue : ∃ items later, flwr.toQuery.evaluate library scope arena = .ok items later)
    (result : flwr.ResultIsBound scope ∨ flwr.ComparesContent library scope arena) :
    (∃ items later, query.evaluate library scope arena = .ok items later) ↔
      flwr.RootsEvaluate library scope arena := by
  obtain ⟨plan, rewrites⟩ := toJoins_ok rewritten
  constructor
  · rintro ⟨_, _, run⟩ source member
    rw [← rewrites.bindings] at member
    exact ⟨_, _, source.evaluate_walk (rewrites.isWalk_of_evaluate run source member)⟩
  · intro roots
    rcases result with binds | content
    · have walks : ∀ source ∈ Binding.rootSources [] plan.bindings,
          source.IsWalk library scope.Binds := by
        intro source member
        obtain ⟨_, _, run⟩ := roots source (rewrites.bindings ▸ member)
        exact rewrites.isWalk_root member run
      exact Query.exists_evaluate (fun _ => rewrites.not_mayFail walks binds) arena
    · have prepared := rewrites.prepared documents.wellFormed reachable.wellFormed existing roots
        content
      obtain ⟨_, _, run⟩ := hasValue
      cases rewrites.simulates prepared with
      | ok _ joinedRun => exact ⟨_, _, joinedRun⟩
      | error failed _ => exact nomatch run.symm.trans failed

/-- An expression without tuples whose roots can be evaluated. -/
theorem Flwr.toJoins_succeeds_iff_noTuples :
    let library := (Collection.empty.shelf [("f", .text "<a/>")]).library
    let flwr : Flwr := ⟨[⟨"x", .document ⟨"f", .child, .tag "none"⟩⟩,
      ⟨"y", .document ⟨"f", .child, .tag "a"⟩⟩], [], none, .reference "y"⟩
    ∃ query, flwr.toJoins = .ok query ∧ flwr.RootsEvaluate library [] .empty ∧
      ∃ items later, query.evaluate library [] .empty = .ok items later := by
  intro library flwr
  have hasValue : flwr.toQuery.evaluate library [] .empty = .ok [] .empty := rfl
  have result : flwr.ResultIsBound [] := by
    intro name listed
    exact .inl (List.mem_singleton.mp listed ▸ by decide)
  have roots : flwr.RootsEvaluate library [] .empty := by
    refine List.forall_mem_cons.mpr ⟨?_, List.forall_mem_singleton.mpr ?_⟩
    · exact ⟨_, _, Query.evaluate_walk _ ⟨_, rfl⟩⟩
    · exact ⟨_, _, Query.evaluate_walk _ ⟨_, rfl⟩⟩
  obtain ⟨query, rewritten⟩ : ∃ query, flwr.toJoins = .ok query := ⟨_, rfl⟩
  have succeeds := Flwr.toJoins_succeeds_iff library (Collection.Reachable.empty.shelf _) flwr query
    rewritten [] .empty .empty .nil ⟨_, _, hasValue⟩ (.inl result)
  exact ⟨query, rewritten, roots, succeeds.mpr roots⟩

/-- A join reads a document that the expression does not get to. -/
theorem Flwr.toJoins_readsBehindEmpty :
    let library := (Collection.empty.shelf [("f", .text "<r/>")]).library
    let flwr : Flwr := ⟨[⟨"a", .document ⟨"f", .child, .tag "none"⟩⟩,
      ⟨"b", .document ⟨"missing", .child, .tag "b"⟩⟩], [], none, .reference "a"⟩
    (∃ items later, flwr.toQuery.evaluate library [] .empty = .ok items later) ∧
      ∃ query, flwr.toJoins = .ok query ∧ ∃ later, query.evaluate library [] .empty =
        .error (.unavailable "missing" .unknown) later :=
  ⟨⟨[], .empty, rfl⟩, _, rfl, _, rfl⟩

/-- A document with two elements is equal to neither, but a key field holds both: the joins have
a tuple that the expression does not have, and evaluate its result. -/
example :
    let creations : List Creation := [.build none [.element "a" [] [], .element "b" [] []]]
    let library := ((Collection.empty.createAll creations).shelf
      [("f", .document 0), ("g", .text "<a/>")]).library
    let flwr : Flwr := ⟨[⟨"x", .document ⟨"f", .child, .tag "a"⟩⟩,
      ⟨"y", .document ⟨"g", .child, .tag "a"⟩⟩], [],
      some (.valueEq (.step (.reference "x") .child .parent) (.reference "y")), .reference "z"⟩
    (flwr.toQuery.evaluate library []).outcome.map (·.items) = .ok [] ∧
      flwr.toJoins.toOption.map (fun query =>
        (query.evaluate library []).outcome.map (·.items)) =
          some (.error (.unboundVariable "z")) := by decide +kernel

end TreeQuery
