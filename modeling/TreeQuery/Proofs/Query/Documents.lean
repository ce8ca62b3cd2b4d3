import TreeQuery.Proofs.Query.Correspondence
import TreeQuery.Query.Documents

/-!
# Documents of renamed queries

Queries that correspond name the same documents, in the same order: names of variables occur in no
document path.  So a renamed query names the documents that the query names
(`Query.documents_rename`).
-/

set_option autoImplicit false

namespace TreeQuery

variable {free : String → String → Prop}

mutual
/-- **Queries that correspond name the same documents.** -/
theorem Query.Corresponds.documents_eq : {first : Query} → ∀ {second : Query} {links : Links},
    first.Corresponds free links second → second.documents = first.documents
  | .reference _, _, _, .reference _ => by rw [Query.documents, Query.documents]
  | .constant _, _, _, .constant _ => rfl
  | .document _, _, _, .document _ => rfl
  | .parenthesized _, _, _, .parenthesized inner => by
      rw [Query.documents, Query.documents, inner.documents_eq]
  | .pair _ _, _, _, .pair left right | .join _ _ _ _, _, _, .join left right => by
      rw [Query.documents, Query.documents, left.documents_eq, right.documents_eq]
  | .step _ _ _, _, _, .step base => by rw [Query.documents, Query.documents, base.documents_eq]
  | .element _ _, _, _, .element body => by rw [Query.documents, Query.documents, body.documents_eq]
  | .letIn _ _, _, _, .letIn bindings body => by
      rw [Query.documents, Query.documents, bindings.documents_eq, body.documents_eq]
  | .flwr _ _ _ _, _, _, .flwr bindings lets condition result => by
      rw [Query.documents, Query.documents, bindings.documents_eq, lets.documents_eq,
        condition.documents_eq, result.documents_eq]

theorem Condition.Corresponds.documents_eq : {first : Condition} → ∀ {second : Condition}
    {links : Links}, first.Corresponds free links second → second.documents = first.documents
  | .valueEq _ _, _, _, .valueEq left right | .identityEq _ _, _, _, .identityEq left right
  | .and _ _, _, _, .and left right | .or _ _, _, _, .or left right => by
      rw [Condition.documents, Condition.documents, left.documents_eq, right.documents_eq]
  | .empty _, _, _, .empty query => by
      rw [Condition.documents, Condition.documents, query.documents_eq]
  | .someSatisfies _ _, _, _, .someSatisfies bindings body => by
      rw [Condition.documents, Condition.documents, bindings.documents_eq, body.documents_eq]
  | .parenthesized _, _, _, .parenthesized inner | .not _, _, _, .not inner => by
      rw [Condition.documents, Condition.documents, inner.documents_eq]

theorem Condition.CorrespondIfPresent.documents_eq : {first : Option Condition} →
    ∀ {second : Option Condition} {links : Links},
      Condition.CorrespondIfPresent free links first second →
        Condition.documentsIfPresent second = Condition.documentsIfPresent first
  | none, _, _, .none => rfl
  | some _, _, _, .some condition => by
      rw [Condition.documentsIfPresent, Condition.documentsIfPresent, condition.documents_eq]

theorem Binding.CorrespondInOrder.documents_eq : {first : List Binding} →
    ∀ {second : List Binding} {links inner : Links},
      Binding.CorrespondInOrder free links first second inner →
        Binding.documentsOfAll second = Binding.documentsOfAll first
  | [], _, _, _, .nil => rfl
  | ⟨_, _⟩ :: _, _, _, _, .cons source rest => by
      rw [Binding.documentsOfAll, Binding.documentsOfAll, source.documents_eq, rest.documents_eq]

theorem Binding.CorrespondApart.documents_eq : {first : List Binding} →
    ∀ {second : List Binding} {outer links inner : Links},
      Binding.CorrespondApart free outer links first second inner →
        Binding.documentsOfAll second = Binding.documentsOfAll first
  | [], _, _, _, _, .nil => rfl
  | ⟨_, _⟩ :: _, _, _, _, _, .cons source rest => by
      rw [Binding.documentsOfAll, Binding.documentsOfAll, source.documents_eq, rest.documents_eq]
end

/-- **A renamed query names the same documents.** -/
theorem Query.documents_rename (query : Query) : query.rename.documents = query.documents :=
  query.corresponds_rename.documents_eq

end TreeQuery
