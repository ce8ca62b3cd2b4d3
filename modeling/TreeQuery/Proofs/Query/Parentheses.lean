import TreeQuery.Proofs.Path.Parentheses
import TreeQuery.Proofs.Query.Tokens
import TreeQuery.Query.Evaluation

/-!
# Queries without parentheses

The skeleton of a query or a condition is the tree without any of its parentheses, those of its
paths included.  The parentheses that printing adds are gone from it, and it has the same value
in every scope.
-/

set_option autoImplicit false

namespace TreeQuery

mutual
/-- A query without any of its parentheses. -/
def Query.skeleton : Query → Query
  | .reference name => .reference name
  | .constant value => .constant value
  | .document path => .document path.skeleton
  | .parenthesized inner => inner.skeleton
  | .pair left right => .pair left.skeleton right.skeleton
  | .step base axis path => .step base.skeleton axis path.skeleton
  | .element name body => .element name body.skeleton
  | .join left right leftTags rightTags => .join left.skeleton right.skeleton leftTags rightTags
  | .letIn bindings body => .letIn (Binding.skeletons bindings) body.skeleton
  | .flwr bindings lets condition result =>
      .flwr (Binding.skeletons bindings) (Binding.skeletons lets)
        (Condition.skeletonIfPresent condition) result.skeleton

/-- A condition without any of its parentheses. -/
def Condition.skeleton : Condition → Condition
  | .valueEq left right => .valueEq left.skeleton right.skeleton
  | .identityEq left right => .identityEq left.skeleton right.skeleton
  | .empty query => .empty query.skeleton
  | .someSatisfies bindings body => .someSatisfies (Binding.skeletons bindings) body.skeleton
  | .parenthesized inner => inner.skeleton
  | .and left right => .and left.skeleton right.skeleton
  | .or left right => .or left.skeleton right.skeleton
  | .not inner => .not inner.skeleton

/-- A condition without any of its parentheses, if there is one. -/
def Condition.skeletonIfPresent : Option Condition → Option Condition
  | none => none
  | some condition => some condition.skeleton

/-- Bindings without any parentheses in their sources. -/
def Binding.skeletons : List Binding → List Binding
  | [] => []
  | ⟨name, source⟩ :: rest => ⟨name, source.skeleton⟩ :: Binding.skeletons rest
end

/-! ## Added parentheses -/

@[simp] theorem Query.skeleton_parenthesizedIf (needed : Bool) (query : Query) :
    (query.parenthesizedIf needed).skeleton = query.skeleton := by
  cases needed with
  | false => rfl
  | true =>
      show (parenthesized query).skeleton = _
      rw [skeleton]

@[simp] theorem Condition.skeleton_parenthesizedIf (needed : Bool) (condition : Condition) :
    (condition.parenthesizedIf needed).skeleton = condition.skeleton := by
  cases needed with
  | false => rfl
  | true =>
      show (parenthesized condition).skeleton = _
      rw [skeleton]

theorem DocumentPath.skeleton_explicit (path : DocumentPath) :
    path.explicit.skeleton = path.skeleton := by
  rw [explicit, skeleton, skeleton, Path.skeleton_explicit_operand]

mutual
theorem Query.skeleton_explicit : (query : Query) → query.explicit.skeleton = query.skeleton
  | .reference _ | .constant _ => by rw [Query.explicit]
  | .document path => by
      rw [Query.explicit, Query.skeleton, Query.skeleton, path.skeleton_explicit]
  | .parenthesized inner => by
      rw [Query.explicit, Query.skeleton, Query.skeleton, inner.skeleton_explicit]
  | .pair left right => by
      simp [Query.explicit, Query.skeleton, left.skeleton_explicit, right.skeleton_explicit]
  | .step base _ path => by
      simp [Query.explicit, Query.skeleton, base.skeleton_explicit, path.skeleton_explicit_operand]
  | .element _ body => by
      rw [Query.explicit, Query.skeleton, Query.skeleton, body.skeleton_explicit]
  | .join left right _ _ => by
      simp [Query.explicit, Query.skeleton, left.skeleton_explicit, right.skeleton_explicit]
  | .letIn bindings body => by
      rw [Query.explicit, Query.skeleton, Query.skeleton, Binding.skeletons_explicitAll bindings,
        body.skeleton_explicit]
  | .flwr bindings lets condition result => by
      rw [Query.explicit, Query.skeleton, Query.skeleton, Binding.skeletons_explicitAll bindings,
        Binding.skeletons_explicitAll lets, Condition.skeletonIfPresent_explicit condition,
        result.skeleton_explicit]

theorem Condition.skeleton_explicit : (condition : Condition) →
    condition.explicit.skeleton = condition.skeleton
  | .valueEq left right => by
      simp [Condition.explicit, Condition.skeleton, left.skeleton_explicit, right.skeleton_explicit]
  | .identityEq left right => by
      simp [Condition.explicit, Condition.skeleton, left.skeleton_explicit, right.skeleton_explicit]
  | .empty query => by
      rw [Condition.explicit, Condition.skeleton, Condition.skeleton, query.skeleton_explicit]
  | .someSatisfies bindings body => by
      rw [Condition.explicit, Condition.skeleton, Condition.skeleton,
        Binding.skeletons_explicitAll bindings, body.skeleton_explicit]
  | .parenthesized inner => by
      rw [Condition.explicit, Condition.skeleton, Condition.skeleton, inner.skeleton_explicit]
  | .and left right => by
      simp [Condition.explicit, Condition.skeleton, left.skeleton_explicit, right.skeleton_explicit]
  | .or left right => by
      simp [Condition.explicit, Condition.skeleton, left.skeleton_explicit, right.skeleton_explicit]
  | .not inner => by simp [Condition.explicit, Condition.skeleton, inner.skeleton_explicit]

theorem Condition.skeletonIfPresent_explicit : (condition : Option Condition) →
    Condition.skeletonIfPresent (Condition.explicitIfPresent condition) =
      Condition.skeletonIfPresent condition
  | none => rfl
  | some condition => by
      rw [Condition.explicitIfPresent, Condition.skeletonIfPresent, Condition.skeletonIfPresent,
        condition.skeleton_explicit]

theorem Binding.skeletons_explicitAll : (bindings : List Binding) →
    Binding.skeletons (Binding.explicitAll bindings) = Binding.skeletons bindings
  | [] => rfl
  | ⟨_, source⟩ :: rest => by
      simp [Binding.explicitAll, Binding.skeletons, source.skeleton_explicit,
        Binding.skeletons_explicitAll rest]
end

/-! ## Values -/

theorem Query.constant?_parenthesized (inner : Query) :
    (parenthesized inner).constant? = inner.constant? := by
  rw [constant?, constant?, unparenthesized]

theorem Query.constant?_skeleton : (query : Query) → query.skeleton.constant? = query.constant?
  | .parenthesized inner => by
      rw [skeleton, constant?_parenthesized, inner.constant?_skeleton]
  | .reference _ | .constant _ => by rw [skeleton]
  | .document _ | .pair _ _ | .step _ _ _ | .element _ _ | .join _ _ _ _ | .letIn _ _
  | .flwr _ _ _ _ => by
      rw [skeleton]
      rfl

section

variable (library : Library)

open Evaluation

theorem Evaluation.documentPath_skeleton (path : DocumentPath) :
    documentPath library path.skeleton = documentPath library path := by
  simp only [documentPath, DocumentPath.skeleton, Path.selectAlong, Path.select_skeleton]

mutual
/-- A query has the value of its skeleton. -/
theorem Query.evaluate_skeleton : (query : Query) → (scope : Scope) →
    query.skeleton.evaluate library scope = query.evaluate library scope
  | .reference _, _ | .constant _, _ => by rw [Query.skeleton]
  | .document path, _ => by
      rw [Query.skeleton, Query.evaluate, Query.evaluate, documentPath_skeleton]
  | .parenthesized inner, scope => by
      rw [Query.skeleton, Query.evaluate, inner.evaluate_skeleton]
  | .pair left right, scope => by
      rw [Query.skeleton, Query.evaluate, Query.evaluate, left.evaluate_skeleton,
        right.evaluate_skeleton]
  | .step base _ path, scope => by
      simp only [Query.skeleton, Query.evaluate, base.evaluate_skeleton, Path.selectAlong,
        Path.select_skeleton]
  | .element _ body, scope => by
      rw [Query.skeleton, Query.evaluate, Query.evaluate, body.evaluate_skeleton]
  | .join left right _ _, scope => by
      rw [Query.skeleton, Query.evaluate, Query.evaluate, left.evaluate_skeleton,
        right.evaluate_skeleton]
  | .letIn bindings body, scope => by
      simp only [Query.skeleton, Query.evaluate, Binding.bindApart_skeletons bindings,
        body.evaluate_skeleton]
  | .flwr bindings lets condition result, scope => by
      simp only [Query.skeleton, Query.evaluate, Binding.collectTuples_skeletons bindings,
        Binding.bindInOrder_skeletons lets, Condition.holdsIfPresent_skeleton condition,
        result.evaluate_skeleton]

theorem Condition.holds_skeleton : (condition : Condition) → (scope : Scope) →
    condition.skeleton.holds library scope = condition.holds library scope
  | .valueEq left right, scope => by
      simp only [Condition.skeleton, Condition.holds, Query.constant?_skeleton,
        left.evaluate_skeleton, right.evaluate_skeleton]
  | .identityEq left right, scope => by
      simp only [Condition.skeleton, Condition.holds, left.evaluate_skeleton,
        right.evaluate_skeleton]
  | .empty query, scope => by
      simp only [Condition.skeleton, Condition.holds, query.evaluate_skeleton]
  | .someSatisfies bindings body, scope => by
      simp only [Condition.skeleton, Condition.holds, Binding.anyTuple_skeletons bindings,
        body.holds_skeleton]
  | .parenthesized inner, scope => by
      rw [Condition.skeleton, Condition.holds, inner.holds_skeleton]
  | .and left right, scope => by
      simp only [Condition.skeleton, Condition.holds, left.holds_skeleton, right.holds_skeleton]
  | .or left right, scope => by
      simp only [Condition.skeleton, Condition.holds, left.holds_skeleton, right.holds_skeleton]
  | .not inner, scope => by
      simp only [Condition.skeleton, Condition.holds, inner.holds_skeleton]

theorem Condition.holdsIfPresent_skeleton : (condition : Option Condition) → (scope : Scope) →
    Condition.holdsIfPresent library (Condition.skeletonIfPresent condition) scope =
      Condition.holdsIfPresent library condition scope
  | none, _ => rfl
  | some condition, scope => by
      rw [Condition.skeletonIfPresent, Condition.holdsIfPresent, Condition.holdsIfPresent,
        condition.holds_skeleton]

theorem Binding.collectTuples_skeletons : (bindings : List Binding) → (scope : Scope) →
    (visit : Scope → Evaluation (List Item)) →
      Binding.collectTuples library (Binding.skeletons bindings) scope visit =
        Binding.collectTuples library bindings scope visit
  | [], _, _ => rfl
  | ⟨_, source⟩ :: rest, scope, visit => by
      simp only [Binding.skeletons, Binding.collectTuples, source.evaluate_skeleton,
        Binding.collectTuples_skeletons rest]

theorem Binding.anyTuple_skeletons : (bindings : List Binding) → (scope : Scope) →
    (visit : Scope → Evaluation Bool) →
      Binding.anyTuple library (Binding.skeletons bindings) scope visit =
        Binding.anyTuple library bindings scope visit
  | [], _, _ => rfl
  | ⟨_, source⟩ :: rest, scope, visit => by
      simp only [Binding.skeletons, Binding.anyTuple, source.evaluate_skeleton,
        Binding.anyTuple_skeletons rest]

theorem Binding.bindInOrder_skeletons : (bindings : List Binding) → (scope : Scope) →
    (visit : Scope → Evaluation (List Item)) →
      Binding.bindInOrder library (Binding.skeletons bindings) scope visit =
        Binding.bindInOrder library bindings scope visit
  | [], _, _ => rfl
  | ⟨_, source⟩ :: rest, scope, visit => by
      simp only [Binding.skeletons, Binding.bindInOrder, source.evaluate_skeleton,
        Binding.bindInOrder_skeletons rest]

theorem Binding.bindApart_skeletons : (bindings : List Binding) → (outer inner : Scope) →
    Binding.bindApart library (Binding.skeletons bindings) outer inner =
      Binding.bindApart library bindings outer inner
  | [], _, _ => rfl
  | ⟨_, source⟩ :: rest, outer, inner => by
      simp only [Binding.skeletons, Binding.bindApart, source.evaluate_skeleton,
        Binding.bindApart_skeletons rest]
end

end

end TreeQuery
