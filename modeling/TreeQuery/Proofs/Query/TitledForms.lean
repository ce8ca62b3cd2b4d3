import TreeQuery.Proofs.Query.Correspondence
import TreeQuery.Proofs.Query.Regrouping
import TreeQuery.Proofs.Query.Titles
import TreeQuery.Query.Documents

/-!
# Titles and the forms of a query

Renaming, regrouping and making parentheses explicit look at no name of a document, so they do
the same to a query whether its documents have their names or their titles
(`Query.renaming_titled`, `Query.regrouped_titled`, `Query.explicit_titled`).  What renaming does
is a computation, so there the titles are given to what it ends with.
-/

set_option autoImplicit false

namespace TreeQuery

open Renaming

variable (title : String → String)

/-! ## Documents -/

mutual
/-- The documents of a query with titles are the titles of its documents. -/
theorem Query.documents_titled : (query : Query) →
    (query.titled title).documents = query.documents.map title
  | .reference _ | .constant _ | .document _ => by rw [Query.titled]; rfl
  | .parenthesized inner => by
      rw [Query.titled, Query.documents, Query.documents, inner.documents_titled]
  | .pair left right | .join left right _ _ => by
      rw [Query.titled, Query.documents, Query.documents, left.documents_titled,
        right.documents_titled, List.map_append]
  | .step base _ _ => by rw [Query.titled, Query.documents, Query.documents, base.documents_titled]
  | .element _ body => by
      rw [Query.titled, Query.documents, Query.documents, body.documents_titled]
  | .letIn bindings body => by
      rw [Query.titled, Query.documents, Query.documents, Binding.documentsOfAll_titledAll bindings,
        body.documents_titled, List.map_append]
  | .flwr bindings lets condition result => by
      rw [Query.titled, Query.documents, Query.documents, Binding.documentsOfAll_titledAll bindings,
        Binding.documentsOfAll_titledAll lets, Condition.documents_titledIfPresent condition,
        result.documents_titled, List.map_append, List.map_append, List.map_append]

theorem Condition.documents_titled : (condition : Condition) →
    (condition.titled title).documents = condition.documents.map title
  | .valueEq left right | .identityEq left right | .and left right | .or left right => by
      rw [Condition.titled, Condition.documents, Condition.documents, left.documents_titled,
        right.documents_titled, List.map_append]
  | .empty query => by
      rw [Condition.titled, Condition.documents, Condition.documents, query.documents_titled]
  | .someSatisfies bindings body => by
      rw [Condition.titled, Condition.documents, Condition.documents,
        Binding.documentsOfAll_titledAll bindings, body.documents_titled, List.map_append]
  | .parenthesized inner | .not inner => by
      rw [Condition.titled, Condition.documents, Condition.documents, inner.documents_titled]

theorem Condition.documents_titledIfPresent : (condition : Option Condition) →
    Condition.documentsIfPresent (Condition.titledIfPresent title condition) =
      (Condition.documentsIfPresent condition).map title
  | none => rfl
  | some condition => by
      rw [Condition.titledIfPresent, Condition.documentsIfPresent, Condition.documentsIfPresent,
        condition.documents_titled]

theorem Binding.documentsOfAll_titledAll : (bindings : List Binding) →
    Binding.documentsOfAll (Binding.titledAll title bindings) =
      (Binding.documentsOfAll bindings).map title
  | [] => rfl
  | ⟨_, source⟩ :: rest => by
      rw [Binding.titledAll, Binding.documentsOfAll, Binding.documentsOfAll,
        source.documents_titled, Binding.documentsOfAll_titledAll rest, List.map_append]
end

/-! ## Renaming -/

section

variable {strict : Bool}

mutual
/-- Renaming a query with titles gives titles to the renamed query. -/
theorem Query.renameIn_titled : (query : Query) → ∀ {names : NewNames},
    (query.titled title).renameIn strict names =
      Query.titled title <$> query.renameIn strict names
  | .reference _, _ => by
      simp only [Query.titled, Query.renameIn, map_bind, map_pure]
  | .constant _, _ | .document _, _ => by
      simp only [Query.titled, Query.renameIn, map_pure]
  | .parenthesized inner, _ => by
      simp only [Query.titled, Query.renameIn, inner.renameIn_titled, bind_map_left, map_bind,
        map_pure]
  | .pair left right, _ => by
      simp only [Query.titled, Query.renameIn, left.renameIn_titled, right.renameIn_titled,
        bind_map_left, map_bind, map_pure]
  | .step base _ _, _ => by
      simp only [Query.titled, Query.renameIn, base.renameIn_titled, bind_map_left, map_bind,
        map_pure]
  | .element _ body, _ => by
      simp only [Query.titled, Query.renameIn, body.renameIn_titled, bind_map_left, map_bind,
        map_pure]
  | .join left right _ _, _ => by
      simp only [Query.titled, Query.renameIn, left.renameIn_titled, right.renameIn_titled,
        bind_map_left, map_bind, map_pure]
  | .letIn bindings body, _ => by
      simp only [Query.titled, Query.renameIn, Binding.renameApart_titledAll bindings,
        body.renameIn_titled, bind_map_left, map_bind, map_pure, Prod.map, id]
  | .flwr bindings lets condition result, _ => by
      simp only [Query.titled, Query.renameIn, Binding.renameInOrder_titledAll bindings,
        Binding.renameInOrder_titledAll lets,
        Condition.renameIfPresent_titled condition, result.renameIn_titled, bind_map_left,
        map_bind, map_pure, Prod.map, id]

theorem Condition.renameIn_titled : (condition : Condition) →
    ∀ {names : NewNames}, (condition.titled title).renameIn strict names =
      Condition.titled title <$> condition.renameIn strict names
  | .valueEq left right, _ | .identityEq left right, _ | .and left right, _
  | .or left right, _ => by
      simp only [Condition.titled, Condition.renameIn, left.renameIn_titled,
        right.renameIn_titled, bind_map_left, map_bind, map_pure]
  | .empty query, _ => by
      simp only [Condition.titled, Condition.renameIn, query.renameIn_titled, bind_map_left,
        map_bind, map_pure]
  | .someSatisfies bindings body, _ => by
      simp only [Condition.titled, Condition.renameIn,
        Binding.renameInOrder_titledAll bindings, body.renameIn_titled, bind_map_left,
        map_bind, map_pure, Prod.map, id]
  | .parenthesized inner, _ | .not inner, _ => by
      simp only [Condition.titled, Condition.renameIn, inner.renameIn_titled, bind_map_left,
        map_bind, map_pure]

theorem Condition.renameIfPresent_titled : (condition : Option Condition) →
    ∀ {names : NewNames},
      Condition.renameIfPresent strict (Condition.titledIfPresent title condition) names =
        Condition.titledIfPresent title <$> Condition.renameIfPresent strict condition names
  | none, _ => by
      simp only [Condition.titledIfPresent, Condition.renameIfPresent, map_pure]
  | some condition, _ => by
      simp only [Condition.titledIfPresent, Condition.renameIfPresent, condition.renameIn_titled,
        bind_map_left, map_bind, map_pure]

theorem Binding.renameInOrder_titledAll : (bindings : List Binding) →
    ∀ {names : NewNames},
      Binding.renameInOrder strict (Binding.titledAll title bindings) names =
        Prod.map (Binding.titledAll title) id <$> Binding.renameInOrder strict bindings names
  | [], _ => by
      simp only [Binding.titledAll, Binding.renameInOrder, map_pure, Prod.map, id]
  | ⟨_, source⟩ :: rest, _ => by
      simp only [Binding.titledAll, Binding.renameInOrder, source.renameIn_titled,
        Binding.renameInOrder_titledAll rest, bind_map_left, map_bind, map_pure, Prod.map,
        id]

theorem Binding.renameApart_titledAll : (bindings : List Binding) →
    ∀ {outer inner : NewNames},
      Binding.renameApart strict (Binding.titledAll title bindings) outer inner =
        Prod.map (Binding.titledAll title) id <$>
          Binding.renameApart strict bindings outer inner
  | [], _, _ => by
      simp only [Binding.titledAll, Binding.renameApart, map_pure, Prod.map, id]
  | ⟨_, source⟩ :: rest, _, _ => by
      simp only [Binding.titledAll, Binding.renameApart, source.renameIn_titled,
        Binding.renameApart_titledAll rest, bind_map_left, map_bind, map_pure, Prod.map, id]
end

end

/-- **Renaming does not depend on the names of documents.** -/
theorem Query.renaming_titled (strict : Bool) (query : Query) :
    (query.titled title).renaming strict = Query.titled title <$> query.renaming strict :=
  query.renameIn_titled title

/-- A query with titles is renamed to the renamed query with titles. -/
theorem Query.renaming_titled_ok {strict : Bool} {counter later : Nat} {query renamed : Query}
    (run : query.renaming strict counter = .ok renamed later) :
    (query.titled title).renaming strict counter = .ok (renamed.titled title) later := by
  rw [query.renaming_titled title]
  show EStateM.map (titled title) (query.renaming strict) counter = _
  rw [EStateM.map, run]

theorem Query.rename_titled (query : Query) :
    (query.titled title).rename = query.rename.titled title := by
  obtain ⟨later, run⟩ := query.run_rename
  rw [rename, EStateM.run, renaming_titled_ok title run]

/-! ## Regrouping -/

theorem Query.continued_titled (axis : Axis) (path : Path) (base : Query) :
    (base.titled title).continued axis path = (base.continued axis path).titled title := by
  cases base <;> simp only [titled, continued, DocumentPath.titled]

mutual
/-- **Regrouping does not depend on the names of documents.** -/
theorem Query.regrouped_titled : (query : Query) →
    (query.titled title).regrouped = query.regrouped.titled title
  | .reference _ | .constant _ | .document _ => by
      simp only [Query.titled, Query.regrouped]
  | .parenthesized inner => by simp only [Query.titled, Query.regrouped, inner.regrouped_titled]
  | .pair left right | .join left right _ _ => by
      simp only [Query.titled, Query.regrouped, left.regrouped_titled, right.regrouped_titled]
  | .step base _ _ => by
      rw [Query.titled, Query.regrouped, Query.regrouped, base.regrouped_titled,
        Query.continued_titled]
  | .element _ body => by simp only [Query.titled, Query.regrouped, body.regrouped_titled]
  | .letIn bindings body => by
      simp only [Query.titled, Query.regrouped, Binding.regroupedAll_titledAll bindings,
        body.regrouped_titled]
  | .flwr bindings lets condition result => by
      simp only [Query.titled, Query.regrouped, Binding.regroupedAll_titledAll bindings,
        Binding.regroupedAll_titledAll lets, Condition.regroupedIfPresent_titled condition,
        result.regrouped_titled]

theorem Condition.regrouped_titled : (condition : Condition) →
    (condition.titled title).regrouped = condition.regrouped.titled title
  | .valueEq left right | .identityEq left right | .and left right | .or left right => by
      simp only [Condition.titled, Condition.regrouped, left.regrouped_titled,
        right.regrouped_titled]
  | .empty query => by simp only [Condition.titled, Condition.regrouped, query.regrouped_titled]
  | .someSatisfies bindings body => by
      simp only [Condition.titled, Condition.regrouped, Binding.regroupedAll_titledAll bindings,
        body.regrouped_titled]
  | .parenthesized inner | .not inner => by
      simp only [Condition.titled, Condition.regrouped, inner.regrouped_titled]

theorem Condition.regroupedIfPresent_titled : (condition : Option Condition) →
    Condition.regroupedIfPresent (Condition.titledIfPresent title condition) =
      Condition.titledIfPresent title (Condition.regroupedIfPresent condition)
  | none => by simp only [Condition.titledIfPresent, Condition.regroupedIfPresent]
  | some condition => by
      simp only [Condition.titledIfPresent, Condition.regroupedIfPresent,
        condition.regrouped_titled]

theorem Binding.regroupedAll_titledAll : (bindings : List Binding) →
    Binding.regroupedAll (Binding.titledAll title bindings) =
      Binding.titledAll title (Binding.regroupedAll bindings)
  | [] => by simp only [Binding.titledAll, Binding.regroupedAll]
  | ⟨_, source⟩ :: rest => by
      simp only [Binding.titledAll, Binding.regroupedAll, source.regrouped_titled,
        Binding.regroupedAll_titledAll rest]
end

/-! ## Explicit parentheses -/

@[simp] theorem Query.tightness_titled (query : Query) :
    (query.titled title).tightness = query.tightness := by
  cases query <;> rw [titled] <;> rfl

@[simp] theorem Query.isOpenEnded_titled : (query : Query) →
    (query.titled title).isOpenEnded = query.isOpenEnded
  | .pair _ right => by rw [titled, isOpenEnded, isOpenEnded, right.isOpenEnded_titled]
  | .reference _ | .constant _ | .document _ | .parenthesized _ | .step _ _ _ | .element _ _
  | .join _ _ _ _ | .letIn _ _ | .flwr _ _ _ _ => by
      simp [titled, isOpenEnded]

@[simp] theorem Query.needsParentheses_titled (query : Query) :
    (query.titled title).needsParentheses = query.needsParentheses := by
  rw [needsParentheses, needsParentheses, isOpenEnded_titled, tightness_titled]

@[simp] theorem Condition.tightness_titled (condition : Condition) :
    (condition.titled title).tightness = condition.tightness := by
  cases condition <;> rw [titled] <;> rfl

@[simp] theorem Condition.isOpenEnded_titled : (condition : Condition) →
    (condition.titled title).isOpenEnded = condition.isOpenEnded
  | .and _ right | .or _ right => by
      rw [titled, isOpenEnded, isOpenEnded, right.isOpenEnded_titled]
  | .not inner => by rw [titled, isOpenEnded, isOpenEnded, inner.isOpenEnded_titled]
  | .valueEq _ _ | .identityEq _ _ | .empty _ | .someSatisfies _ _ | .parenthesized _ => by
      simp [titled, isOpenEnded]

@[simp] theorem Query.parenthesizedIf_titled (needed : Bool) (query : Query) :
    (query.titled title).parenthesizedIf needed = (query.parenthesizedIf needed).titled title := by
  cases needed with
  | false => rfl
  | true => exact (Query.titled.eq_4 title query).symm

@[simp] theorem Condition.parenthesizedIf_titled (needed : Bool) (condition : Condition) :
    (condition.titled title).parenthesizedIf needed =
      (condition.parenthesizedIf needed).titled title := by
  cases needed with
  | false => rfl
  | true => exact (Condition.titled.eq_5 title condition).symm

mutual
/-- **Making parentheses explicit does not depend on the names of documents.** -/
theorem Query.explicit_titled : (query : Query) →
    (query.titled title).explicit = query.explicit.titled title
  | .reference _ | .constant _ => by simp only [Query.titled, Query.explicit]
  | .document _ => by
      simp only [Query.titled, Query.explicit, DocumentPath.titled, DocumentPath.explicit]
  | .parenthesized inner => by simp only [Query.titled, Query.explicit, inner.explicit_titled]
  | .pair left right | .join left right _ _ => by
      simp [Query.titled, Query.explicit, left.explicit_titled, right.explicit_titled]
  | .step base _ _ => by simp [Query.titled, Query.explicit, base.explicit_titled]
  | .element _ body => by simp only [Query.titled, Query.explicit, body.explicit_titled]
  | .letIn bindings body => by
      simp only [Query.titled, Query.explicit, Binding.explicitAll_titledAll bindings,
        body.explicit_titled]
  | .flwr bindings lets condition result => by
      simp only [Query.titled, Query.explicit, Binding.explicitAll_titledAll bindings,
        Binding.explicitAll_titledAll lets, Condition.explicitIfPresent_titled condition,
        result.explicit_titled]

theorem Condition.explicit_titled : (condition : Condition) →
    (condition.titled title).explicit = condition.explicit.titled title
  | .valueEq left right | .identityEq left right | .and left right | .or left right => by
      simp [Condition.titled, Condition.explicit, left.explicit_titled, right.explicit_titled]
  | .empty query => by simp only [Condition.titled, Condition.explicit, query.explicit_titled]
  | .someSatisfies bindings body => by
      simp only [Condition.titled, Condition.explicit, Binding.explicitAll_titledAll bindings,
        body.explicit_titled]
  | .parenthesized inner => by
      simp only [Condition.titled, Condition.explicit, inner.explicit_titled]
  | .not inner => by simp [Condition.titled, Condition.explicit, inner.explicit_titled]

theorem Condition.explicitIfPresent_titled : (condition : Option Condition) →
    Condition.explicitIfPresent (Condition.titledIfPresent title condition) =
      Condition.titledIfPresent title (Condition.explicitIfPresent condition)
  | none => by simp only [Condition.titledIfPresent, Condition.explicitIfPresent]
  | some condition => by
      simp only [Condition.titledIfPresent, Condition.explicitIfPresent, condition.explicit_titled]

theorem Binding.explicitAll_titledAll : (bindings : List Binding) →
    Binding.explicitAll (Binding.titledAll title bindings) =
      Binding.titledAll title (Binding.explicitAll bindings)
  | [] => by simp only [Binding.titledAll, Binding.explicitAll]
  | ⟨_, source⟩ :: rest => by
      simp [Binding.titledAll, Binding.explicitAll, source.explicit_titled,
        Binding.explicitAll_titledAll rest]
end

end TreeQuery
