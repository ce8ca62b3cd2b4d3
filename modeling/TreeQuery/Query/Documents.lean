import TreeQuery.Grammar.Parse

/-!
# The documents of a query

A query names its documents in it, and its evaluation reads no others.
-/

set_option autoImplicit false

namespace TreeQuery

mutual
/-- The names of the documents of a query, from left to right. -/
def Query.documents : Query → List String
  | .reference _ | .constant _ => []
  | .document path => [path.document]
  | .parenthesized inner => inner.documents
  | .pair left right => left.documents ++ right.documents
  | .step base _ _ => base.documents
  | .element _ body => body.documents
  | .join left right _ _ => left.documents ++ right.documents
  | .letIn bindings body => Binding.documentsOfAll bindings ++ body.documents
  | .flwr bindings lets condition result =>
      Binding.documentsOfAll bindings ++ Binding.documentsOfAll lets ++
        Condition.documentsIfPresent condition ++ result.documents

/-- The names of the documents of a condition, from left to right. -/
def Condition.documents : Condition → List String
  | .valueEq left right | .identityEq left right => left.documents ++ right.documents
  | .empty query => query.documents
  | .someSatisfies bindings body => Binding.documentsOfAll bindings ++ body.documents
  | .parenthesized inner | .not inner => inner.documents
  | .and left right | .or left right => left.documents ++ right.documents

/-- The names of the documents of a condition, if there is one. -/
def Condition.documentsIfPresent : Option Condition → List String
  | none => []
  | some condition => condition.documents

/-- The names of the documents of the sources of bindings. -/
def Binding.documentsOfAll : List Binding → List String
  | [] => []
  | ⟨_, source⟩ :: rest => source.documents ++ Binding.documentsOfAll rest
end

/-- The names of the documents of the query that a text is; a text that is no query has
none.  A document path is a query too. -/
def Query.documentsIn (source : String) : List String :=
  match Query.parse source with
  | .ok query => query.documents.eraseDups
  | .error _ => []

end TreeQuery
