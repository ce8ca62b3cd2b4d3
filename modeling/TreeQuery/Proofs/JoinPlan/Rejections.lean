import TreeQuery.Proofs.JoinPlan.Soundness

/-!
# Rejections

Every phase of join planning has its own reasons to reject an expression (`toJoins_error`).  Some
reasons never come up: there is always a group, no group is empty, and as every equality between
groups is taken up by a join, no condition is left over.  Once an expression has passed the checks
and its groups are known, it is rejected only for a side that can reach attributes
(`assemble_error`).
-/

set_option autoImplicit false

namespace TreeQuery

theorem exists_of_isOk {ε α : Type} {check : Except ε α} (succeeds : check.isOk = true) :
    ∃ value, check = .ok value := by
  cases check with
  | error failure => cases succeeds
  | ok value => exact ⟨value, rfl⟩

/-- A check in two parts fails if one of them does. -/
theorem bind_eq_error {ε α β : Type} {check : Except ε α} {next : α → Except ε β} {failure : ε}
    (fails : check >>= next = .error failure) :
    check = .error failure ∨ ∃ value, check = .ok value ∧ next value = .error failure := by
  cases check with
  | error other =>
      cases fails
      exact .inl rfl
  | ok value => exact .inr ⟨value, rfl, fails⟩

/-- Checking members one after the other fails at one of them. -/
theorem mapM_eq_error {ε α β : Type} {check : α → Except ε β} {failure : ε} {members : List α}
    (fails : members.mapM check = .error failure) :
    ∃ member ∈ members, check member = .error failure := by
  induction members with
  | nil => cases fails
  | cons first rest ih =>
      rw [List.mapM_cons] at fails
      rcases bind_eq_error fails with here | ⟨result, _, fails⟩
      · exact ⟨first, List.mem_cons_self, here⟩
      · rcases bind_eq_error fails with later | ⟨results, _, fails⟩
        · obtain ⟨member, listed, there⟩ := ih later
          exact ⟨member, List.mem_cons_of_mem _ listed, there⟩
        · cases fails

namespace JoinPlan

variable {rejection : Rejection}

/-! ## Checks -/

theorem sourceParent_error {earlier : List Binding} {source : Query}
    (rejected : sourceParent earlier source = .error rejection) : rejection.phase = .checkFor := by
  unfold sourceParent at rejected
  split at rejected
  · split at rejected
    · cases rejected
    · cases rejected
      rfl
  · split at rejected
    · cases rejected
    · cases rejected
      rfl
  · cases rejected
    rfl
  · cases rejected
    rfl

theorem sourceParents_error {bindings : List Binding} : ∀ {earlier : List Binding},
    sourceParents earlier bindings = .error rejection → rejection.phase = .checkFor := by
  induction bindings with
  | nil =>
      intro earlier rejected
      cases rejected
  | cons binding rest ih =>
      intro earlier rejected
      rw [sourceParents] at rejected
      split at rejected
      · cases rejected
        rfl
      · rcases bind_eq_error rejected with here | ⟨parent, _, rejected⟩
        · exact sourceParent_error here
        · rcases bind_eq_error rejected with later | ⟨parents, _, rejected⟩
          · exact ih later
          · cases rejected

theorem checkSources_error {flwr : Flwr} (rejected : checkSources flwr = .error rejection) :
    rejection.phase = .checkFor := by
  rw [checkSources] at rejected
  split at rejected
  · exact sourceParents_error rejected
  · cases rejected
    rfl

theorem equalitiesOf_error {bindings : List Binding} : (condition : Condition) →
    equalitiesOf bindings condition = .error rejection → rejection.phase = .checkWhere
  | .and left right, rejected => by
      rw [equalitiesOf] at rejected
      rcases bind_eq_error rejected with first | ⟨equalities, _, rejected⟩
      · exact equalitiesOf_error left first
      · rcases bind_eq_error rejected with second | ⟨others, _, rejected⟩
        · exact equalitiesOf_error right second
        · cases rejected
  | .parenthesized inner, rejected => by
      rw [equalitiesOf] at rejected
      exact equalitiesOf_error inner rejected
  | .valueEq left right, rejected => by
      rw [equalitiesOf] at rejected
      split at rejected
      · cases rejected
      · cases rejected
        rfl
  | .identityEq _ _, rejected | .empty _, rejected | .someSatisfies _ _, rejected
  | .or _ _, rejected | .not _, rejected => by
      cases rejected
      rfl

theorem checkCondition_error {flwr : Flwr} (rejected : checkCondition flwr = .error rejection) :
    rejection.phase = .checkWhere := by
  rw [checkCondition] at rejected
  split at rejected
  · cases rejected
  · exact equalitiesOf_error _ rejected

theorem checkResult_error : (result : Query) → checkResult result = .error rejection →
    rejection.phase = .checkReturn
  | .reference _, rejected => by cases rejected
  | .parenthesized inner, rejected | .element _ inner, rejected => by
      rw [checkResult] at rejected
      exact checkResult_error inner rejected
  | .pair left right, rejected => by
      rw [checkResult] at rejected
      rcases bind_eq_error rejected with first | ⟨_, _, second⟩
      · exact checkResult_error left first
      · exact checkResult_error right second
  | .step base _ path, rejected => by
      rw [checkResult] at rejected
      split at rejected
      · cases rejected
        rfl
      · split at rejected
        · cases rejected
          rfl
        · exact checkResult_error base rejected
  | .constant _, rejected | .document _, rejected | .join _ _ _ _, rejected
  | .letIn _ _, rejected | .flwr _ _ _ _, rejected => by
      cases rejected
      rfl

theorem planGroups_error {parents : List (Option Nat)}
    (rejected : planGroups parents = .error rejection) :
    rejection = .singleGroup ∨ rejection = .interleavedGroups := by
  rw [planGroups] at rejected
  split at rejected
  · cases rejected
    exact .inl rfl
  · split at rejected
    · cases rejected
      exact .inr rfl
    · cases rejected

/-! ## Keys -/

theorem keyTag_error {endpoint : Endpoint} {keys : Keys}
    (rejected : (keyTag endpoint).run keys = .error rejection) : rejection = .attributeKey := by
  obtain ⟨group, query⟩ := endpoint
  rw [keyTag] at rejected
  split at rejected
  · cases rejected
  · split at rejected
    · cases rejected
      rfl
    · dsimp only at rejected
      simp only [StateT.run_bind, StateT.run_get, pure_bind] at rejected
      split at rejected
      · cases rejected
      · cases rejected

theorem planJoin_error {group : Nat} {equalities : List CrossEquality} : ∀ {keys : Keys},
    (planJoin group equalities).run keys = .error rejection → rejection = .attributeKey := by
  induction equalities with
  | nil =>
      intro keys rejected
      cases rejected
  | cons equality rest ih =>
      intro keys rejected
      rw [planJoin] at rejected
      split at rejected
      · rcases bind_eq_error rejected with joined | ⟨_, _, rejected⟩
        · exact keyTag_error joined
        · rcases bind_eq_error rejected with new | ⟨_, _, rejected⟩
          · exact keyTag_error new
          · rcases bind_eq_error rejected with later | ⟨_, _, rejected⟩
            · exact ih later
            · cases rejected
      · rcases bind_eq_error rejected with later | ⟨_, _, rejected⟩
        · exact ih later
        · cases rejected

theorem planJoins_error {count : Nat} : ∀ {group : Nat} {equalities : List CrossEquality}
    {keys : Keys}, (planJoins group count equalities).run keys = .error rejection →
      rejection = .attributeKey := by
  induction count with
  | zero =>
      intro group equalities keys rejected
      cases rejected
  | succ count ih =>
      intro group equalities keys rejected
      rw [planJoins] at rejected
      rcases bind_eq_error rejected with first | ⟨_, _, rejected⟩
      · exact planJoin_error first
      · rcases bind_eq_error rejected with later | ⟨_, _, rejected⟩
        · exact ih later
        · cases rejected

/-! ## Groups -/

/-- Every group has been opened by a binding. -/
theorem Grouping.exists_group_eq {parents : List (Option Nat)} {group : Nat}
    (opened : group < (ofParents parents).count) :
    ∃ binding < parents.length, (ofParents parents).group binding = group := by
  induction parents using List.reverseRecOn with
  | nil => exact absurd opened (Nat.not_lt_zero _)
  | append_singleton parents last ih =>
      have before : group < (ofParents parents).count →
          ∃ binding < (parents ++ [last]).length,
            (ofParents (parents ++ [last])).group binding = group := by
        intro earlier
        obtain ⟨binding, inside, same⟩ := ih earlier
        refine ⟨binding, ?_, ?_⟩
        · rw [List.length_append]
          exact Nat.lt_add_right _ inside
        · rw [group_append_singleton last inside, same]
      cases last with
      | some parent =>
          rw [ofParents_append_singleton, add] at opened
          exact before opened
      | none =>
          rw [ofParents_append_singleton, add] at opened
          rcases Nat.lt_succ_iff_lt_or_eq.mp opened with earlier | same
          · exact before earlier
          · refine ⟨parents.length, by simp, ?_⟩
            rw [group_last]
            exact same.symm

/-- No group is empty. -/
theorem Grouping.bindingsOf_ne_nil {bindings : List Binding} {parents : List (Option Nat)}
    (areParents : AreParents bindings parents) {group : Nat}
    (opened : group < (ofParents parents).count) :
    (ofParents parents).bindingsOf bindings group ≠ [] := by
  obtain ⟨i, inside, same⟩ := exists_group_eq opened
  rw [areParents.length] at inside
  have member : bindings[i] ∈ (ofParents parents).bindingsOf bindings group :=
    (mem_bindingsOf areParents).mpr ⟨i, List.getElem?_eq_getElem inside, same⟩
  exact List.ne_nil_of_mem member

theorem groupQuery_error {bindings : List Binding} {conditions : List Condition}
    {keys : List KeyField} (rejected : groupQuery bindings conditions keys = .error rejection) :
    bindings = [] := by
  rw [groupQuery] at rejected
  split at rejected
  · rename_i none
    cases bindings with
    | nil => rfl
    | cons binding rest => cases none
  · cases rejected

theorem groupQueries_ne_error {flwr : Flwr} {parents : List (Option Nat)}
    (areParents : AreParents flwr.bindings parents) (equalities : List Equality)
    (keys : List KeyField) :
    groupQueries flwr (.ofParents parents) equalities keys ≠ .error rejection := by
  intro rejected
  obtain ⟨group, member, rejected⟩ := mapM_eq_error rejected
  exact Grouping.bindingsOf_ne_nil areParents (List.mem_range.mp member)
    (groupQuery_error rejected)

/-! ## Whole expressions -/

/-- **Once an expression has passed the checks and its groups are known, it is rejected only for
a side that can reach attributes.** -/
theorem assemble_error {flwr : Flwr} {parents : List (Option Nat)} {equalities : List Equality}
    (areParents : AreParents flwr.bindings parents)
    (describes : ∀ equality ∈ equalities, equality.Describes flwr.bindings)
    (several : 2 ≤ (Grouping.ofParents parents).count)
    (rejected : assemble flwr (.ofParents parents) equalities = .error rejection) :
    rejection = .attributeKey := by
  rw [assemble] at rejected
  rcases bind_eq_error rejected with keys | ⟨⟨⟨joins, leftovers⟩, keys⟩, planned, rejected⟩
  · exact planJoins_error keys
  · rcases bind_eq_error rejected with queries | ⟨queries, planQueries, rejected⟩
    · exact absurd queries (groupQueries_ne_error areParents _ _)
    · exfalso
      obtain ⟨_, _, left, _⟩ :=
        planJoins_ok (sound_empty _ _) (areSides_crossEqualities _ _) planned
      let plan : Plan := ⟨flwr.bindings, parents, equalities, keys⟩
      obtain rfl : leftovers = [] := plan.leftovers_eq_nil areParents describes left
      have lengths := (forall₂_of_mapM planQueries).length_eq
      rw [List.length_range] at lengths
      cases queries with
      | nil =>
          rw [List.length_nil] at lengths
          omega
      | cons first others => cases rejected

/-- **Every phase rejects for its own reasons**, and planning the joins for three: that there is
one group only, that groups interleave, and that a side can reach attributes. -/
theorem toJoins_error {flwr : Flwr} (rejected : flwr.toJoins = .error rejection) :
    rejection.phase ∈ [Phase.checkFor, .checkWhere, .checkReturn] ∨
      rejection ∈ [Rejection.singleGroup, .interleavedGroups, .attributeKey] := by
  rw [Flwr.toJoins] at rejected
  rcases bind_eq_error rejected with sources | ⟨parents, sources, rejected⟩
  · simp [checkSources_error sources]
  · rcases bind_eq_error rejected with condition | ⟨equalities, condition, rejected⟩
    · simp [checkCondition_error condition]
    · rcases bind_eq_error rejected with result | ⟨_, _, rejected⟩
      · simp [checkResult_error _ result]
      · rcases bind_eq_error rejected with groups | ⟨grouping, groups, rejected⟩
        · rcases planGroups_error groups with rfl | rfl <;> simp
        · obtain ⟨_, areParents⟩ := checkSources_ok sources
          obtain ⟨rfl, several, _⟩ := planGroups_ok groups
          have describes := describes_of_checkCondition condition
          simp [assemble_error areParents describes several rejected]

end JoinPlan

end TreeQuery
