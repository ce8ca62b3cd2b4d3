import TreeQuery.Proofs.JoinPlan.Stability

/-!
# Optimizing once is enough

The expression that replaces another one cannot be replaced itself, because it ranges over a
chain of joins and that is no source.  Neither can the expressions that compute the tuples of
its groups: all bindings of a group but the first are paths off variables of the group, so a
group by itself has one root, and a single group is not joined
(`Grouping.count_bindingsOf_le_one`).  Nothing else in the new expression is a `for` expression
(`Flwr.replace_toJoins`).

An expression that is not replaced is not replaced later either, when other expressions have
been replaced inside of it.  So optimizing an optimized query replaces nothing
(`Query.optimize_settles`).
-/

set_option autoImplicit false

namespace TreeQuery

open JoinPlan

variable {replacements : Replacements}

/-! ## Lists of parts that stay -/

theorem Binding.replaceAll_eq_self : (bindings : List Binding) →
    (∀ binding ∈ bindings, binding.source.replace replacements = binding.source) →
      Binding.replaceAll replacements bindings = bindings
  | [], _ => by rw [Binding.replaceAll]
  | ⟨name, source⟩ :: rest, stay => by
      have staySource : source.replace replacements = source := stay _ List.mem_cons_self
      rw [Binding.replaceAll, staySource, Binding.replaceAll_eq_self rest
        fun binding listed => stay binding (List.mem_cons_of_mem _ listed)]

theorem Query.replace_sequence {queries : List Query} {query : Query}
    (stay : ∀ query ∈ queries, query.replace replacements = query)
    (made : Query.sequence queries = some query) : query.replace replacements = query := by
  refine leftNested_induction (fun left right => ?_) stay made
  rw [replace, left, right]

theorem Condition.replace_conjunction {conditions : List Condition}
    (stay : ∀ condition ∈ conditions, condition.replace replacements = condition) :
    Condition.replaceIfPresent replacements (Condition.conjunction conditions) =
      Condition.conjunction conditions := by
  cases made : Condition.conjunction conditions with
  | none => rw [replaceIfPresent]
  | some condition =>
      have stays : condition.replace replacements = condition := by
        refine leftNested_induction (fun left right => ?_) stay made
        rw [replace, left, right]
      rw [replaceIfPresent, stays]

namespace JoinPlan

/-! ## Groups by themselves -/

/-- Every binding without a parent opens a group. -/
theorem Grouping.count_ofParents (parents : List (Option Nat)) :
    (ofParents parents).count = parents.count none := by
  induction parents using List.reverseRecOn with
  | nil => rfl
  | append_singleton parents last ih =>
      rw [ofParents_append_singleton, List.count_append]
      cases last with
      | none => rw [add, ih, List.count_singleton_self]
      | some parent => rw [add, ih, List.count_singleton]; rfl

section Groups

variable {bindings : List Binding} {parents others : List (Option Nat)} {group : Nat}

/-- In its group, a binding that is not the first has a parent. -/
theorem Grouping.exists_parent_of_bindingsOf (areParents : AreParents bindings parents)
    {first binding : Binding} {before after : List Binding}
    (split : (ofParents parents).bindingsOf bindings group =
      first :: before ++ binding :: after) :
    ∃ owner, pathOwner? binding.source = some owner ∧
      owner ∈ (first :: before).map (·.name) := by
  obtain ⟨i, found, inGroup, mem_before⟩ := exists_of_bindingsOf_split split
  obtain ⟨j, earlier, _, same⟩ := (mem_before first).mp List.mem_cons_self
  have linked := areParents.parent found
  cases parent : (pathOwner? binding.source).bind fun owner =>
      (bindings.take i).findIdx? (·.name == owner) with
  | none =>
      -- a root opens a group, so the first binding would be in another one
      rw [parent] at linked
      have before := group_lt_of_root areParents.earlier linked earlier
      rw [same, inGroup] at before
      exact absurd before (Nat.lt_irrefl _)
  | some k =>
      rw [parent] at linked
      obtain ⟨owner, owned, place⟩ := Option.bind_eq_some_iff.mp parent
      obtain ⟨below, named, _⟩ := List.findIdx?_eq_some_iff_getElem.mp place
      rw [List.length_take, Nat.lt_min] at below
      obtain ⟨before, inside⟩ := below
      rw [List.getElem_take] at named
      refine ⟨owner, owned, List.mem_map.mpr ⟨bindings[k], ?_, eq_of_beq named⟩⟩
      refine (mem_before _).mpr ⟨k, before, List.getElem?_eq_getElem inside, ?_⟩
      rw [← inGroup, group_ofParents areParents.earlier linked]

/-- **A group by itself is a single group.** -/
theorem Grouping.count_bindingsOf_le_one (areParents : AreParents bindings parents)
    (inside : AreParents ((ofParents parents).bindingsOf bindings group) others) :
    (ofParents others).count ≤ 1 := by
  rw [count_ofParents]
  cases others with
  | nil => exact Nat.zero_le _
  | cons root rest =>
      have linked : rest.count none = 0 := by
        rw [List.count_eq_zero]
        intro member
        obtain ⟨i, inRest, absent⟩ := List.mem_iff_getElem.mp member
        have length := inside.length
        cases members : (ofParents parents).bindingsOf bindings group with
        | nil => simp [members] at length
        | cons first later =>
            rw [members] at inside length
            have below : i < later.length := Nat.succ.inj length ▸ inRest
            have found : (first :: later)[i + 1]? = some later[i] := by simp [below]
            have split : first :: later =
                first :: later.take i ++ later[i] :: later.drop (i + 1) := by simp
            obtain ⟨owner, owned, listed⟩ :=
              exists_parent_of_bindingsOf areParents (members.trans split)
            have parent := inside.parent found
            rw [List.getElem?_cons_succ, List.getElem?_eq_getElem inRest, absent, owned,
              Option.bind_some, List.take_succ_cons, Option.some.injEq, eq_comm,
              List.findIdx?_eq_none_iff] at parent
            obtain ⟨binding, among, same⟩ := List.mem_map.mp listed
            exact absurd (parent binding among) (by simp [same])
      rw [List.count_cons, linked]
      split <;> decide

end Groups

/-! ## Joins are settled -/

theorem replace_joinChain : (stages : List (Query × List (String × String))) →
    (∀ stage ∈ stages, stage.1.replace replacements = stage.1) → ∀ {first : Query},
      first.replace replacements = first →
        (joinChain first stages).replace replacements = joinChain first stages
  | [], _, _, stays => stays
  | (query, tags) :: rest, stay, first, stays => by
      obtain ⟨stayQuery, stayRest⟩ := List.forall_mem_cons.mp stay
      rw [joinChain, List.foldl_cons]
      refine replace_joinChain rest stayRest ?_
      rw [Query.replace, stays, stayQuery]

/-- In an eligible result nothing is replaced when its variables are read from fields. -/
theorem replace_project (tuple : String) (boundNames : List String) : (result : Query) →
    checkResult result = .ok () →
      (project tuple boundNames result).replace replacements = project tuple boundNames result
  | .reference name, _ => by
      rw [project]
      split
      · rw [Query.replace, Query.replace]
      · rw [Query.replace]
  | .parenthesized inner, checked => by
      rw [project, Query.replace, replace_project tuple boundNames inner checked]
  | .element _ body, checked => by
      rw [project, Query.replace, replace_project tuple boundNames body checked]
  | .pair left right, checked => by
      rw [checkResult] at checked
      obtain ⟨_, checkedLeft, checkedRight⟩ := bind_eq_ok checked
      rw [project, Query.replace, replace_project tuple boundNames left checkedLeft,
        replace_project tuple boundNames right checkedRight]
  | .step base _ _, checked => by
      rw [checkResult] at checked
      split at checked
      · cases checked
      · split at checked
        · cases checked
        · rw [project, Query.replace, replace_project tuple boundNames base checked]

namespace Plan.Rewrites

variable {plan : Plan} {flwr : Flwr} {query : Query} (rewrites : plan.Rewrites flwr query)
include rewrites

/-- A group by itself does not become joins. -/
theorem joins_group (group : Nat) (lets : List Binding) (condition : Option Condition)
    (result : Query) :
    Replacements.joins ⟨plan.bindingsOf group, lets, condition, result⟩ = none := by
  rw [Option.eq_none_iff_forall_ne_some]
  intro joined found
  obtain ⟨inside, rewritesInside⟩ := toJoins_ok (Replacements.joins_eq_some.mp found)
  have several := (planGroups_ok rewritesInside.groups).2.1
  have single : inside.grouping.count ≤ 1 :=
    Grouping.count_bindingsOf_le_one rewrites.areParents
      (rewritesInside.bindings ▸ rewritesInside.areParents)
  exact absurd several (Nat.not_le_of_lt (Nat.lt_succ_of_le single))

/-- Nothing is replaced in the query for the tuples of a group. -/
theorem replace_groupQuery {group : Nat} {tuples : Query}
    (planned : groupQuery (plan.bindingsOf group) (plan.conditionsOf group)
      (plan.keys.fields.filter (·.group = group)) = .ok tuples) :
    tuples.replace .joins = tuples := by
  rw [groupQuery] at planned
  split at planned
  · cases planned
  rename_i body made
  obtain rfl := Except.ok.inj planned
  have bindings : Binding.replaceAll .joins (plan.bindingsOf group) = plan.bindingsOf group := by
    refine Binding.replaceAll_eq_self _ fun binding listed => ?_
    obtain ⟨i, found, _⟩ := (Grouping.mem_bindingsOf rewrites.areParents).mp listed
    exact (rewrites.areParents.source found).replace_eq
  have condition : Condition.replaceIfPresent .joins
      (Condition.conjunction (plan.conditionsOf group)) =
        Condition.conjunction (plan.conditionsOf group) := by
    refine Condition.replace_conjunction fun condition listed => ?_
    obtain ⟨equality, among, _, rfl⟩ := mem_groupConditions.mp listed
    exact (rewrites.describes equality among).replace_eq
  have body : body.replace .joins = body := by
    refine Query.replace_sequence (List.forall_mem_append.mpr ⟨?_, ?_⟩) made
    · refine List.forall_mem_map.mpr fun binding _ => ?_
      rw [variableField, Query.replace, Query.replace]
    · refine List.forall_mem_map.mpr fun key listed => ?_
      obtain ⟨_, _, owned⟩ := owned_of_isSide rewrites.areParents rewrites.describes
        (rewrites.sound.sides key (List.mem_of_mem_filter listed))
      rw [Query.replace, replace_of_pathOwner? key.query owned]
  rw [Query.replace, rewrites.joins_group, Option.getD_none, bindings, Binding.replaceAll,
    condition, Query.replace, body]

end Plan.Rewrites

end JoinPlan

/-- **Nothing is replaced in the joins for an expression.** -/
theorem Flwr.replace_toJoins {flwr : Flwr} {query : Query} (rewritten : flwr.toJoins = .ok query) :
    query.replace .joins = query := by
  obtain ⟨plan, rewrites⟩ := toJoins_ok rewritten
  obtain ⟨tuple, first, stages, _, _, firstPlanned, planned, rfl⟩ := rewrites.chain
  have whole : Replacements.joins ⟨[⟨tuple, joinChain first stages⟩], [], none,
      project tuple (flwr.bindings.map (·.name)) flwr.result⟩ = none := by
    rw [Option.eq_none_iff_forall_ne_some]
    intro joined found
    obtain ⟨outer, rewritesOuter⟩ := toJoins_ok (Replacements.joins_eq_some.mp found)
    have found : outer.bindings[0]? = some ⟨tuple, joinChain first stages⟩ := by
      rw [rewritesOuter.bindings]
      rfl
    exact not_isSource_joinChain stages firstPlanned (rewritesOuter.areParents.source found)
  have chain : (joinChain first stages).replace .joins = joinChain first stages := by
    refine replace_joinChain stages ?_ (rewrites.replace_groupQuery firstPlanned)
    intro stage listed
    obtain ⟨_, _, tuplesPlanned, _⟩ := (Gathered.of_forall₂ planned).right _ listed
    exact rewrites.replace_groupQuery tuplesPlanned
  rw [Query.replace, whole, Option.getD_none, Binding.replaceAll, Binding.replaceAll,
    Binding.replaceAll, chain, Condition.replaceIfPresent, replace_project _ _ _ rewrites.result]

/-! ## Optimized queries are settled -/

mutual
/-- Nothing is replaced in a query in which everything has been replaced. -/
theorem Query.replace_replace : (query : Query) →
    (query.replace .joins).replace .joins = query.replace .joins
  | .reference _ | .constant _ | .document _ => by rw [Query.replace, Query.replace]
  | .parenthesized inner => by rw [Query.replace, Query.replace, inner.replace_replace]
  | .pair left right => by
      rw [Query.replace, Query.replace, left.replace_replace, right.replace_replace]
  | .step base _ _ => by rw [Query.replace, Query.replace, base.replace_replace]
  | .element _ body => by rw [Query.replace, Query.replace, body.replace_replace]
  | .join left right _ _ => by
      rw [Query.replace, Query.replace, left.replace_replace, right.replace_replace]
  | .letIn bindings body => by
      rw [Query.replace, Query.replace, Binding.replaceAll_replaceAll bindings,
        body.replace_replace]
  | .flwr bindings lets condition result => by
      rw [Query.replace]
      cases planned : Flwr.toJoins ⟨bindings, lets, condition, result⟩ with
      | ok query =>
          rw [Replacements.joins_eq_some.mpr planned]
          exact Flwr.replace_toJoins planned
      | error rejection =>
          -- what is refused stays refused when parts of it have been replaced
          have refused : Replacements.joins ⟨bindings, lets, condition, result⟩ = none := by
            rw [Replacements.joins, planned]
            rfl
          have refusedLater : Replacements.joins ⟨Binding.replaceAll .joins bindings,
              Binding.replaceAll .joins lets, Condition.replaceIfPresent .joins condition,
              result.replace .joins⟩ = none := by
            rw [← refused, Replacements.joins, Replacements.joins]
            exact congrArg Except.toOption (Flwr.toJoins_replaceInside
              Replacements.keepForm_joins ⟨bindings, lets, condition, result⟩)
          rw [refused, Option.getD_none, Query.replace, refusedLater, Option.getD_none,
            Binding.replaceAll_replaceAll bindings, Binding.replaceAll_replaceAll lets,
            Condition.replaceIfPresent_replaceIfPresent condition, result.replace_replace]

theorem Condition.replace_replace : (condition : Condition) →
    (condition.replace .joins).replace .joins = condition.replace .joins
  | .valueEq left right => by
      rw [Condition.replace, Condition.replace, left.replace_replace, right.replace_replace]
  | .identityEq left right => by
      rw [Condition.replace, Condition.replace, left.replace_replace, right.replace_replace]
  | .empty query => by rw [Condition.replace, Condition.replace, query.replace_replace]
  | .someSatisfies bindings body => by
      rw [Condition.replace, Condition.replace, Binding.replaceAll_replaceAll bindings,
        body.replace_replace]
  | .parenthesized inner => by
      rw [Condition.replace, Condition.replace, inner.replace_replace]
  | .and left right => by
      rw [Condition.replace, Condition.replace, left.replace_replace, right.replace_replace]
  | .or left right => by
      rw [Condition.replace, Condition.replace, left.replace_replace, right.replace_replace]
  | .not inner => by rw [Condition.replace, Condition.replace, inner.replace_replace]

theorem Condition.replaceIfPresent_replaceIfPresent : (condition : Option Condition) →
    Condition.replaceIfPresent .joins (Condition.replaceIfPresent .joins condition) =
      Condition.replaceIfPresent .joins condition
  | none => by rw [Condition.replaceIfPresent, Condition.replaceIfPresent]
  | some condition => by
      rw [Condition.replaceIfPresent, Condition.replaceIfPresent, condition.replace_replace]

theorem Binding.replaceAll_replaceAll : (bindings : List Binding) →
    Binding.replaceAll .joins (Binding.replaceAll .joins bindings) =
      Binding.replaceAll .joins bindings
  | [] => by rw [Binding.replaceAll, Binding.replaceAll]
  | ⟨_, source⟩ :: rest => by
      rw [Binding.replaceAll, Binding.replaceAll, source.replace_replace,
        Binding.replaceAll_replaceAll rest]
end

/-- **Optimizing once is enough**: an optimized query is optimized to itself without a
replacement, and a query that is optimized without a replacement stays as it is. -/
theorem Query.optimize_settles (query : Query) :
    query.optimize.query.optimize = ⟨query.optimize.query, 0⟩ ∧
      (query.optimize.replaced = 0 ↔ query.optimize.query = query) := by
  have settled : query.optimize.query.optimize.query = query.optimize.query := by
    rw [optimize_query, optimize_query, query.replace_replace]
  constructor
  · have none : query.optimize.query.optimize.replaced = 0 := by
      rw [optimize_replaced_eq_zero, ← optimize_query, settled]
    calc query.optimize.query.optimize
        = ⟨query.optimize.query.optimize.query, query.optimize.query.optimize.replaced⟩ := rfl
      _ = ⟨query.optimize.query, 0⟩ := by rw [settled, none]
  · rw [optimize_replaced_eq_zero, optimize_query]

end TreeQuery
