import TreeQuery.Proofs.JoinPlan.Failures
import TreeQuery.Proofs.Query.FreeNames

/-!
# Optimizing keeps queries closed

Joins are made of the sources, the sides of equalities and the result of the expression that
they replace, and a variable of their own.  Whatever of it refers to a variable of the clause
stands behind the binding of that variable in its group, or is taken from the tuple.  So what
has no free names has none after optimizing (`Query.closed_replace`).
-/

set_option autoImplicit false

namespace TreeQuery

open JoinPlan

/-! ## Bound names -/

theorem Binding.mem_boundBehind {name : String} : (bindings : List Binding) →
    ∀ {bound : List String}, name ∈ Binding.boundBehind bound bindings ↔
      name ∈ bindings.map (·.name) ∨ name ∈ bound
  | [], bound => by simp [Binding.boundBehind]
  | ⟨other, _⟩ :: rest, bound => by
      rw [Binding.boundBehind, Binding.mem_boundBehind rest, List.map_cons, List.mem_cons,
        List.mem_cons, or_assoc, or_left_comm]

/-- A scope that binds given names, to nothing. -/
def Scope.ofNames (bound : List String) : Scope := bound.map fun name => (name, [])

theorem Scope.binds_ofNames (bound : List String) :
    (Scope.ofNames bound).Binds = (· ∈ bound) := by
  funext name
  refine propext ⟨fun ⟨items, found⟩ => ?_, fun listed => ?_⟩
  · obtain ⟨_, member, same⟩ := List.mem_map.mp (mem_of_lookup found)
    rwa [(Prod.mk.inj same).1] at member
  · cases found : (Scope.ofNames bound).lookup name with
    | some items => exact ⟨items, found⟩
    | none =>
        have unlisted := List.lookup_eq_none_iff.mp found (name, []) (List.mem_map_of_mem listed)
        exact absurd rfl (bne_iff_ne.mp unlisted)

/-- A library in which every document can be read. -/
def Library.blank : Library := fun _ => .ok .empty

theorem Library.findsVariables_blank : Library.blank.FindsVariables := nofun

theorem mem_of_closed_reference {bound : List String} {name : String}
    (closed : (Query.reference name).free bound = []) : name ∈ bound := by
  rw [Query.free] at closed
  by_contra unlisted
  rw [if_neg unlisted] at closed
  cases closed

namespace JoinPlan

theorem IsSource.isWalk_of_closed {source : Query} (isSource : IsSource source)
    {before bound : List String} (closed : source.free (before ++ bound) = [])
    (isRoot : (pathOwner? source).all (!before.contains ·) = true) :
    source.IsWalk .blank (· ∈ bound) := by
  cases isSource with
  | document _ => exact ⟨.empty, rfl⟩
  | @reference name _ _ _ =>
      rw [Query.free] at closed
      have listed := mem_of_closed_reference closed
      refine (List.mem_append.mp listed).resolve_left fun earlier => ?_
      simp [pathOwner?, earlier] at isRoot

/-- A source that is not a path off a variable of the clause is a path off a document or off a
variable bound around the clause. -/
theorem isWalk_of_mem_rootSources {bound : List String} : (bindings : List Binding) →
    (∀ binding ∈ bindings, IsSource binding.source) → ∀ {before : List String},
      Binding.freeInOrder (before ++ bound) bindings = [] →
        ∀ source ∈ Binding.rootSources before bindings, source.IsWalk .blank (· ∈ bound)
  | [], _, before, _, source, member => absurd member List.not_mem_nil
  | ⟨name, origin⟩ :: rest, areSources, before, closed, source, member => by
      obtain ⟨isSource, others⟩ := List.forall_mem_cons.mp areSources
      rw [Binding.freeInOrder] at closed
      obtain ⟨originClosed, restClosed⟩ := List.append_eq_nil_iff.mp closed
      have later : source ∈ Binding.rootSources (name :: before) rest →
          source.IsWalk .blank (· ∈ bound) :=
        isWalk_of_mem_rootSources rest others restClosed source
      rw [Binding.rootSources] at member
      split at member
      · rename_i isRoot
        rcases List.mem_cons.mp member with rfl | member
        · exact isSource.isWalk_of_closed originClosed isRoot
        · exact later member
      · exact later member

/-- The variables of a result without free names are bound. -/
theorem mem_of_closed_result {bound : List String} : (result : Query) →
    checkResult result = .ok () → result.free bound = [] → ∀ name ∈ result.names, name ∈ bound
  | .reference name, _, closed => by
      rw [Query.names]
      exact List.forall_mem_singleton.mpr (mem_of_closed_reference closed)
  | .parenthesized inner, checked, closed => mem_of_closed_result inner checked closed
  | .element name body, checked, closed => mem_of_closed_result body checked closed
  | .pair left right, checked, closed => by
      rw [checkResult] at checked
      obtain ⟨_, checkedLeft, checkedRight⟩ := bind_eq_ok checked
      rw [Query.free] at closed
      obtain ⟨leftClosed, rightClosed⟩ := List.append_eq_nil_iff.mp closed
      rw [Query.names]
      exact List.forall_mem_append.mpr ⟨mem_of_closed_result left checkedLeft leftClosed,
        mem_of_closed_result right checkedRight rightClosed⟩
  | .step base axis path, checked, closed => by
      rw [checkResult] at checked
      split at checked
      · cases checked
      · split at checked
        · cases checked
        · exact mem_of_closed_result base checked closed

/-- Joins have no free names if the expression that they replace has none. -/
theorem Plan.Rewrites.closed {plan : Plan} {flwr : Flwr} {query : Query}
    (rewrites : plan.Rewrites flwr query) {bound : List String}
    (closed : flwr.toQuery.free bound = []) : query.free bound = [] := by
  rw [Flwr.toQuery, rewrites.lets, Query.free] at closed
  obtain ⟨sourcesClosed, closed⟩ := List.append_eq_nil_iff.mp closed
  obtain ⟨_, closed⟩ := List.append_eq_nil_iff.mp closed
  obtain ⟨_, resultClosed⟩ := List.append_eq_nil_iff.mp closed
  have areSources : ∀ binding ∈ plan.bindings, IsSource binding.source := by
    intro binding member
    obtain ⟨i, inside, rfl⟩ := List.mem_iff_getElem.mp member
    exact rewrites.areParents.source (List.getElem?_eq_getElem inside)
  have roots : ∀ source ∈ Binding.rootSources [] plan.bindings,
      source.IsWalk .blank (Scope.ofNames bound).Binds := by
    rw [Scope.binds_ofNames]
    rw [← rewrites.bindings] at sourcesClosed
    exact isWalk_of_mem_rootSources plan.bindings areSources sourcesClosed
  have binds : ∀ name ∈ flwr.result.names,
      name ∈ flwr.bindings.map (·.name) ∨ (Scope.ofNames bound).Binds name := by
    intro name listed
    rw [Scope.binds_ofNames]
    have isBound := mem_of_closed_result flwr.result rewrites.result resultClosed name listed
    rwa [Binding.boundBehind, Binding.mem_boundBehind] at isBound
  refine List.eq_nil_iff_forall_not_mem.mpr fun name free => ?_
  -- where every document can be read, all that can be missing are variables
  have safe : ¬query.MayFail .blank (.unboundVariable name) (Scope.ofNames bound).Binds :=
    rewrites.not_mayFail roots binds
  rw [Scope.binds_ofNames, query.mayFail_unboundVariable_iff Library.findsVariables_blank] at safe
  exact safe free

end JoinPlan

/-! ## Queries -/

theorem Binding.boundBehind_replaceAll (replacements : Replacements) : (bindings : List Binding) →
    ∀ {bound : List String},
      Binding.boundBehind bound (Binding.replaceAll replacements bindings) =
        Binding.boundBehind bound bindings
  | [], bound => by rw [Binding.replaceAll]
  | ⟨_, _⟩ :: rest, bound => by
      rw [Binding.replaceAll, Binding.boundBehind, Binding.boundBehind,
        Binding.boundBehind_replaceAll replacements rest]

section

variable {replacements : Replacements}

mutual
/-- **Replacing keeps closed queries closed.** -/
theorem Query.closed_replace (planned : replacements.Planned) : (query : Query) →
    ∀ {bound : List String}, query.free bound = [] → (query.replace replacements).free bound = []
  | .reference _, bound, closed | .constant _, bound, closed | .document _, bound, closed => by
      rw [Query.replace]
      exact closed
  | .parenthesized inner, bound, closed => by
      rw [Query.replace, Query.free]
      exact inner.closed_replace planned closed
  | .pair left right, bound, closed => by
      rw [Query.free, List.append_eq_nil_iff] at closed
      rw [Query.replace, Query.free, left.closed_replace planned closed.1,
        right.closed_replace planned closed.2, List.append_nil]
  | .step base axis path, bound, closed => by
      rw [Query.replace, Query.free]
      exact base.closed_replace planned closed
  | .element name body, bound, closed => by
      rw [Query.replace, Query.free]
      exact body.closed_replace planned closed
  | .join left right leftTags rightTags, bound, closed => by
      rw [Query.free, List.append_eq_nil_iff] at closed
      rw [Query.replace, Query.free, left.closed_replace planned closed.1,
        right.closed_replace planned closed.2, List.append_nil]
  | .letIn bindings body, bound, closed => by
      rw [Query.free, List.append_eq_nil_iff] at closed
      rw [Query.replace, Query.free, Binding.closedApart_replaceAll planned bindings closed.1,
        Binding.boundBehind_replaceAll, body.closed_replace planned closed.2, List.append_nil]
  | .flwr bindings lets condition result, bound, closed => by
      rw [Query.replace]
      cases found : replacements ⟨bindings, lets, condition, result⟩ with
      | some query =>
          obtain ⟨plan, rewrites⟩ := toJoins_ok (planned _ _ found)
          exact rewrites.closed closed
      | none =>
          rw [Query.free] at closed
          obtain ⟨bindingsClosed, closed⟩ := List.append_eq_nil_iff.mp closed
          obtain ⟨letsClosed, closed⟩ := List.append_eq_nil_iff.mp closed
          obtain ⟨conditionClosed, resultClosed⟩ := List.append_eq_nil_iff.mp closed
          rw [Option.getD_none, Query.free,
            Binding.closedInOrder_replaceAll planned bindings bindingsClosed,
            Binding.boundBehind_replaceAll,
            Binding.closedInOrder_replaceAll planned lets letsClosed,
            Binding.boundBehind_replaceAll,
            Condition.closed_replaceIfPresent planned condition conditionClosed,
            result.closed_replace planned resultClosed]
          rfl

theorem Condition.closed_replace (planned : replacements.Planned) : (condition : Condition) →
    ∀ {bound : List String}, condition.free bound = [] →
      (condition.replace replacements).free bound = []
  | .valueEq left right, bound, closed | .identityEq left right, bound, closed => by
      rw [Condition.free, List.append_eq_nil_iff] at closed
      rw [Condition.replace, Condition.free, left.closed_replace planned closed.1,
        right.closed_replace planned closed.2, List.append_nil]
  | .empty query, bound, closed => by
      rw [Condition.replace, Condition.free]
      exact query.closed_replace planned closed
  | .someSatisfies bindings body, bound, closed => by
      rw [Condition.free, List.append_eq_nil_iff] at closed
      rw [Condition.replace, Condition.free,
        Binding.closedInOrder_replaceAll planned bindings closed.1,
        Binding.boundBehind_replaceAll, body.closed_replace planned closed.2, List.append_nil]
  | .parenthesized inner, bound, closed | .not inner, bound, closed => by
      rw [Condition.replace, Condition.free]
      exact inner.closed_replace planned closed
  | .and left right, bound, closed | .or left right, bound, closed => by
      rw [Condition.free, List.append_eq_nil_iff] at closed
      rw [Condition.replace, Condition.free, left.closed_replace planned closed.1,
        right.closed_replace planned closed.2, List.append_nil]

theorem Condition.closed_replaceIfPresent (planned : replacements.Planned) :
    (condition : Option Condition) → ∀ {bound : List String},
      Condition.freeIfPresent bound condition = [] →
        Condition.freeIfPresent bound (Condition.replaceIfPresent replacements condition) = []
  | none, bound, closed => by
      rw [Condition.replaceIfPresent]
      exact closed
  | some condition, bound, closed => by
      rw [Condition.replaceIfPresent, Condition.freeIfPresent]
      exact condition.closed_replace planned closed

theorem Binding.closedInOrder_replaceAll (planned : replacements.Planned) :
    (bindings : List Binding) → ∀ {bound : List String},
      Binding.freeInOrder bound bindings = [] →
        Binding.freeInOrder bound (Binding.replaceAll replacements bindings) = []
  | [], bound, closed => by
      rw [Binding.replaceAll]
      exact closed
  | ⟨name, source⟩ :: rest, bound, closed => by
      rw [Binding.freeInOrder, List.append_eq_nil_iff] at closed
      rw [Binding.replaceAll, Binding.freeInOrder, source.closed_replace planned closed.1,
        Binding.closedInOrder_replaceAll planned rest closed.2, List.append_nil]

theorem Binding.closedApart_replaceAll (planned : replacements.Planned) :
    (bindings : List Binding) → ∀ {bound : List String},
      Binding.freeApart bound bindings = [] →
        Binding.freeApart bound (Binding.replaceAll replacements bindings) = []
  | [], bound, closed => by
      rw [Binding.replaceAll]
      exact closed
  | ⟨name, source⟩ :: rest, bound, closed => by
      rw [Binding.freeApart, List.append_eq_nil_iff] at closed
      rw [Binding.replaceAll, Binding.freeApart, source.closed_replace planned closed.1,
        Binding.closedApart_replaceAll planned rest closed.2, List.append_nil]
end

end

/-- A query without free names has none after optimizing. -/
theorem Query.closed_optimize {query : Query} (closed : query.free [] = []) :
    query.optimize.query.free [] = [] := by
  rw [query.optimize_query]
  exact query.closed_replace Replacements.planned_joins closed

end TreeQuery
