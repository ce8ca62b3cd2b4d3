import TreeQuery.Proofs.Query.Scopes

/-!
# One query from two arenas

What has been constructed before a query is evaluated shows nowhere in the result: two
evaluations of one query, in scopes that stand for matching items, end with the same failure
or with matching items (`Query.evaluate_matches`).  Matching items have the same content and
stand at the same places relative to each other, and they are equal where their counterparts
are, so no path, comparison, constructor or join can tell the two evaluations apart.
-/

set_option autoImplicit false

namespace TreeQuery

open Evaluation

variable {library : Library} {world : World library}

/-- Two scopes bind the same names to matching items. -/
inductive Scope.Matches (world : World library) : Scope → Scope → Prop where
  | nil : Scope.Matches world [] []
  | cons {scope other : Scope} {items others : List Item} (name : String)
      (same : Level.exact.Holds world items others) (rest : Scope.Matches world scope other) :
      Scope.Matches world ((name, items) :: scope) ((name, others) :: other)

namespace Scope.Matches

variable {scope other : Scope}

theorem grow {later : World library} (related : Scope.Matches world scope other)
    (grows : world.Grows later) : Scope.Matches later scope other := by
  induction related with
  | nil => exact .nil
  | cons name same _ ih => exact .cons name (same.grow grows) ih

/-- A name is bound on both sides, to matching items, or on neither. -/
theorem lookup (related : Scope.Matches world scope other) (name : String) :
    Option.Rel (Level.exact.Holds world) (scope.lookup name) (other.lookup name) := by
  induction related with
  | nil => exact .none
  | cons bound same _ ih =>
      rw [List.lookup_cons, List.lookup_cons]
      cases name == bound with
      | true => exact .some same
      | false => exact ih

end Scope.Matches

/-- A condition that holds or fails on both sides guards matching items. -/
theorem Simulates.guarded {condition otherCondition : Evaluation Bool}
    {result otherResult : Evaluation (List Item)}
    (conditions : Simulates world condition otherCondition fun _ yes answer => yes = answer)
    (results : ∀ {later : World library}, world.Grows later →
      Simulates later result otherResult Level.exact.Holds) :
    Simulates world (do if ← condition then result else return [])
      (do if ← otherCondition then otherResult else return []) Level.exact.Holds := by
  refine conditions.bind fun {_ yes _} grows same => ?_
  subst same
  cases yes with
  | true => exact results grows
  | false => exact .pure .nil

mutual
/-- **Two evaluations of one query in matching scopes end alike.** -/
theorem Query.evaluate_matches : (query : Query) → ∀ {world : World library}
    {scope other : Scope}, scope.Matches world other →
      Simulates world (query.evaluate library scope) (query.evaluate library other)
        Level.exact.Holds
  | .reference name, world, scope, other, related => by
      rw [Query.evaluate, Query.evaluate]
      have found := related.lookup name
      generalize scope.lookup name = items at found
      generalize other.lookup name = others at found
      cases found with
      | none => exact .throw _
      | some same => exact .pure same
  | .constant value, world, scope, other, _ => by
      rw [Query.evaluate, Query.evaluate]
      exact (Simulates.constructText value).bind fun _ same => .pure (.cons same .nil)
  | .document path, world, scope, other, _ => by
      rw [Query.evaluate, Query.evaluate]
      exact .documentPath path
  | .parenthesized inner, world, scope, other, related => by
      rw [Query.evaluate, Query.evaluate]
      exact inner.evaluate_matches related
  | .pair left right, world, scope, other, related => by
      rw [Query.evaluate, Query.evaluate]
      refine (left.evaluate_matches related).bind fun grows before => ?_
      refine (right.evaluate_matches (related.grow grows)).bind fun further after => ?_
      exact .pure ((before.grow further).append after)
  | .step base axis path, world, scope, other, related => by
      rw [Query.evaluate, Query.evaluate]
      refine (base.evaluate_matches related).bind fun _ context => ?_
      exact .observe (context.step rfl axis)
  | .element name body, world, scope, other, related => by
      rw [Query.evaluate, Query.evaluate]
      refine (body.evaluate_matches related).bind fun _ content => ?_
      refine (Simulates.constructElement name (content.copied nofun)).bind fun _ same => ?_
      exact .pure (.cons same .nil)
  | .join left right leftTags rightTags, world, scope, other, related => by
      rw [Query.evaluate, Query.evaluate, Evaluation.join, Evaluation.join]
      split
      · refine (left.evaluate_matches related).bind fun grows before => ?_
        refine (right.evaluate_matches (related.grow grows)).bind fun further after => ?_
        exact .joinTuples .asMet ((before.grow further).copied nofun) (after.copied nofun)
          leftTags rightTags
      · exact .throw _
  | .letIn bindings body, world, scope, other, related => by
      rw [Query.evaluate, Query.evaluate]
      refine (Binding.bindApart_matches bindings related related).bind fun _ inner => ?_
      exact body.evaluate_matches inner
  | .flwr bindings lets condition result, world, scope, other, related => by
      rw [Query.evaluate, Query.evaluate]
      refine Binding.collectTuples_matches bindings related fun _ tuple => ?_
      refine Binding.bindInOrder_matches lets tuple fun _ row => ?_
      exact .guarded (Condition.holdsIfPresent_matches condition row) fun grows =>
        result.evaluate_matches (row.grow grows)

/-- A condition holds in both of two matching scopes, or fails in both. -/
theorem Condition.holds_matches : (condition : Condition) → ∀ {world : World library}
    {scope other : Scope}, scope.Matches world other →
      Simulates world (condition.holds library scope) (condition.holds library other)
        fun _ yes answer => yes = answer
  | .valueEq left right, world, scope, other, related => by
      rw [Condition.holds, Condition.holds]
      cases left.constant? with
      | some value =>
          cases right.constant? with
          | some _ => exact .pure rfl
          | none =>
              refine (right.evaluate_matches related).bind fun _ same => .observe ?_
              exact (anyStringValue_gathered same.gathered value).symm
      | none =>
          cases right.constant? with
          | some value =>
              refine (left.evaluate_matches related).bind fun _ same => .observe ?_
              exact (anyStringValue_gathered same.gathered value).symm
          | none =>
              refine (left.evaluate_matches related).bind fun grows before => ?_
              refine (right.evaluate_matches (related.grow grows)).bind
                fun {later _ _} further after => .observe ?_
              exact (anyValueEq_gathered later.viewLeft_wellFormed later.viewRight_wellFormed
                (before.grow further).gathered after.gathered).symm
  | .identityEq left right, world, scope, other, related => by
      rw [Condition.holds, Condition.holds]
      refine (left.evaluate_matches related).bind fun grows before => ?_
      refine (right.evaluate_matches (related.grow grows)).bind
        fun {later _ _} further after => .pure ?_
      exact (anyIdentical_matching later.matching (before.grow further) after).symm
  | .empty query, world, scope, other, related => by
      rw [Condition.holds, Condition.holds]
      refine (query.evaluate_matches related).bind fun _ same => .pure ?_
      exact same.gathered.isEmpty_eq.symm
  | .someSatisfies bindings body, world, scope, other, related => by
      rw [Condition.holds, Condition.holds]
      exact Binding.anyTuple_matches bindings related fun _ tuple => body.holds_matches tuple
  | .parenthesized inner, world, scope, other, related => by
      rw [Condition.holds, Condition.holds]
      exact inner.holds_matches related
  | .and left right, world, scope, other, related => by
      rw [Condition.holds, Condition.holds]
      refine (left.holds_matches related).bind fun {_ yes _} grows same => ?_
      subst same
      cases yes with
      | true => exact right.holds_matches (related.grow grows)
      | false => exact .pure rfl
  | .or left right, world, scope, other, related => by
      rw [Condition.holds, Condition.holds]
      refine (left.holds_matches related).bind fun {_ yes _} grows same => ?_
      subst same
      cases yes with
      | true => exact .pure rfl
      | false => exact right.holds_matches (related.grow grows)
  | .not inner, world, scope, other, related => by
      rw [Condition.holds, Condition.holds]
      exact (inner.holds_matches related).bind fun _ same => .pure (congrArg (!·) same)

theorem Condition.holdsIfPresent_matches : (condition : Option Condition) →
    ∀ {world : World library} {scope other : Scope}, scope.Matches world other →
      Simulates world (Condition.holdsIfPresent library condition scope)
        (Condition.holdsIfPresent library condition other) fun _ yes answer => yes = answer
  | none, world, scope, other, _ => by
      rw [Condition.holdsIfPresent, Condition.holdsIfPresent]
      exact .pure rfl
  | some condition, world, scope, other, related => by
      rw [Condition.holdsIfPresent, Condition.holdsIfPresent]
      exact condition.holds_matches related

/-- The tuples of a clause go together. -/
theorem Binding.collectTuples_matches : (bindings : List Binding) → ∀ {world : World library}
    {scope other : Scope}, scope.Matches world other →
    ∀ {visit otherVisit : Scope → Evaluation (List Item)},
      (∀ {later : World library} {scope other : Scope}, world.Grows later →
        scope.Matches later other →
          Simulates later (visit scope) (otherVisit other) Level.exact.Holds) →
      Simulates world (Binding.collectTuples library bindings scope visit)
        (Binding.collectTuples library bindings other otherVisit) Level.exact.Holds
  | [], world, scope, other, related, visit, otherVisit, visits => by
      rw [Binding.collectTuples, Binding.collectTuples]
      exact visits (.refl world) related
  | ⟨name, source⟩ :: rest, world, scope, other, related, visit, otherVisit, visits => by
      rw [Binding.collectTuples, Binding.collectTuples]
      refine (source.evaluate_matches related).bind fun grows items => ?_
      have each := Level.Holds.single items rfl
      show Simulates _ _ _ (Level.collected .exact).Holds
      refine Simulates.collect (fun further item => ?_) (each.imp fun _ _ item => item)
      exact Binding.collectTuples_matches rest
        (.cons name (item.grow further) (related.grow (grows.trans further)))
        fun last => visits ((grows.trans further).trans last)

theorem Binding.anyTuple_matches : (bindings : List Binding) → ∀ {world : World library}
    {scope other : Scope}, scope.Matches world other →
    ∀ {visit otherVisit : Scope → Evaluation Bool},
      (∀ {later : World library} {scope other : Scope}, world.Grows later →
        scope.Matches later other →
          Simulates later (visit scope) (otherVisit other) fun _ yes answer => yes = answer) →
      Simulates world (Binding.anyTuple library bindings scope visit)
        (Binding.anyTuple library bindings other otherVisit) fun _ yes answer => yes = answer
  | [], world, scope, other, related, visit, otherVisit, visits => by
      rw [Binding.anyTuple, Binding.anyTuple]
      exact visits (.refl world) related
  | ⟨name, source⟩ :: rest, world, scope, other, related, visit, otherVisit, visits => by
      rw [Binding.anyTuple, Binding.anyTuple]
      refine (source.evaluate_matches related).bind fun grows items => ?_
      have each := Level.Holds.single items rfl
      refine Simulates.any (fun further item => ?_) (each.imp fun _ _ item => item)
      exact Binding.anyTuple_matches rest
        (.cons name (item.grow further) (related.grow (grows.trans further)))
        fun last => visits ((grows.trans further).trans last)

theorem Binding.bindInOrder_matches : (bindings : List Binding) → ∀ {world : World library}
    {scope other : Scope}, scope.Matches world other →
    ∀ {visit otherVisit : Scope → Evaluation (List Item)},
      (∀ {later : World library} {scope other : Scope}, world.Grows later →
        scope.Matches later other →
          Simulates later (visit scope) (otherVisit other) Level.exact.Holds) →
      Simulates world (Binding.bindInOrder library bindings scope visit)
        (Binding.bindInOrder library bindings other otherVisit) Level.exact.Holds
  | [], world, scope, other, related, visit, otherVisit, visits => by
      rw [Binding.bindInOrder, Binding.bindInOrder]
      exact visits (.refl world) related
  | ⟨name, source⟩ :: rest, world, scope, other, related, visit, otherVisit, visits => by
      rw [Binding.bindInOrder, Binding.bindInOrder]
      refine (source.evaluate_matches related).bind fun grows items => ?_
      exact Binding.bindInOrder_matches rest (.cons name items (related.grow grows))
        fun last => visits (grows.trans last)

/-- The scopes behind a stand-alone `let` match. -/
theorem Binding.bindApart_matches : (bindings : List Binding) → ∀ {world : World library}
    {scope other inner otherInner : Scope}, scope.Matches world other →
    inner.Matches world otherInner →
      Simulates world (Binding.bindApart library bindings scope inner)
        (Binding.bindApart library bindings other otherInner) Scope.Matches
  | [], world, scope, other, inner, otherInner, _, innerRelated => by
      rw [Binding.bindApart, Binding.bindApart]
      exact .pure innerRelated
  | ⟨name, source⟩ :: rest, world, scope, other, inner, otherInner, related, innerRelated => by
      rw [Binding.bindApart, Binding.bindApart]
      refine (source.evaluate_matches related).bind fun grows items => ?_
      exact Binding.bindApart_matches rest (related.grow grows)
        (.cons name items (innerRelated.grow grows))
end

end TreeQuery
