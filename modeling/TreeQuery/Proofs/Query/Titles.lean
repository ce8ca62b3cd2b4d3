import TreeQuery.Proofs.Query.Shelves
import TreeQuery.Query.Evaluator

/-!
# Titles of documents

Where several names stand for one document, a query that asks for it under one name means the
same as one that asks for it under another.  So what an evaluator does with a query is what is
done with `Query.titled`, in which every document has its title for a name: then different names
are different documents, and the nodes of documents are told apart by them.

In a table two names have one title exactly if they are the same or stand for the same document
of the collection (`Holding.title_eq_iff`), and under a title the same is found as under its
names (`Collection.library_title`).
-/

set_option autoImplicit false

namespace TreeQuery

/-! ## Titles in a table -/

namespace Holding

variable {table : List (String × Holding)} {name other : String}

/-- What stands under a name stands under its title as well. -/
theorem lookup_title : table.lookup (title table name) = table.lookup name := by
  rw [title]
  split
  · rename_i number held
    cases found : (table.map (·.1)).find? (table.lookup · = some (.document number)) with
    | none => rfl
    | some other =>
        have same := List.find?_some found
        exact (of_decide_eq_true same).trans held.symm
  · rfl

/-- The title of what is no document of the collection is its name. -/
theorem title_of_not_document (apart : ∀ number, table.lookup name ≠ some (.document number)) :
    title table name = name := by
  rw [title]
  split
  · rename_i number held
    exact absurd held (apart number)
  · rfl

/-- All names of a document of the collection have one title. -/
theorem title_of_document {number : Nat} (held : table.lookup name = some (.document number))
    (otherHeld : table.lookup other = some (.document number)) :
    title table name = title table other := by
  have listed : name ∈ table.map (·.1) := List.mem_map_of_mem (mem_of_lookup held)
  have found : ((table.map (·.1)).find? (table.lookup · = some (.document number))).isSome :=
    List.find?_isSome.mpr ⟨name, listed, decide_eq_true held⟩
  obtain ⟨first, found⟩ := Option.isSome_iff_exists.mp found
  rw [title, title, held, otherHeld]
  dsimp only
  rw [found]
  rfl

/-- **Two names have one title exactly if they stand for one document.** -/
theorem title_eq_iff : title table name = title table other ↔ name = other ∨
    ∃ number, table.lookup name = some (.document number) ∧
      table.lookup other = some (.document number) := by
  constructor
  · intro same
    have held : table.lookup name = table.lookup other := by
      rw [← lookup_title, same, lookup_title]
    by_cases isDocument : ∃ number, table.lookup name = some (.document number)
    · obtain ⟨number, isDocument⟩ := isDocument
      exact .inr ⟨number, isDocument, held.symm.trans isDocument⟩
    · have apart := not_exists.mp isDocument
      rw [title_of_not_document apart, title_of_not_document (held ▸ apart)] at same
      exact .inl same
  · rintro (rfl | ⟨number, held, otherHeld⟩)
    · rfl
    · exact title_of_document held otherHeld

example : ["f", "g", "h"].map (title [("f", .document 0), ("g", .document 0), ("h", .text "")]) =
    ["f", "f", "h"] := by decide

end Holding

namespace Collection

variable (collection : Collection) (table : List (String × Holding)) (name : String)

/-- **The document of a title is the document of the name.** -/
theorem library_title :
    let resolver := collection.resolver table
    resolver.library (resolver.title name) = resolver.library name := by
  show (collection.shelf table).library (Holding.title table name) = _
  rw [resolver]
  dsimp only
  rw [library_shelf, library_shelf, Holding.lookup_title]
  by_cases isDocument : ∃ number, table.lookup name = some (.document number)
  · obtain ⟨number, held⟩ := isDocument
    rw [held]
    rfl
  · rw [Holding.title_of_not_document (not_exists.mp isDocument)]

end Collection

/-! ## Titles in a query -/

mutual
/-- A query in which every document has its title for a name. -/
def Query.titled (title : String → String) : Query → Query
  | .reference name => .reference name
  | .constant value => .constant value
  | .document path => .document (path.titled title)
  | .parenthesized inner => .parenthesized (inner.titled title)
  | .pair left right => .pair (left.titled title) (right.titled title)
  | .step base axis path => .step (base.titled title) axis path
  | .element name body => .element name (body.titled title)
  | .join left right leftTags rightTags =>
      .join (left.titled title) (right.titled title) leftTags rightTags
  | .letIn bindings body => .letIn (Binding.titledAll title bindings) (body.titled title)
  | .flwr bindings lets condition result =>
      .flwr (Binding.titledAll title bindings) (Binding.titledAll title lets)
        (Condition.titledIfPresent title condition) (result.titled title)

/-- A condition in which every document has its title for a name. -/
def Condition.titled (title : String → String) : Condition → Condition
  | .valueEq left right => .valueEq (left.titled title) (right.titled title)
  | .identityEq left right => .identityEq (left.titled title) (right.titled title)
  | .empty query => .empty (query.titled title)
  | .someSatisfies bindings body =>
      .someSatisfies (Binding.titledAll title bindings) (body.titled title)
  | .parenthesized inner => .parenthesized (inner.titled title)
  | .and left right => .and (left.titled title) (right.titled title)
  | .or left right => .or (left.titled title) (right.titled title)
  | .not inner => .not (inner.titled title)

/-- A condition in which every document has its title for a name, if there is one. -/
def Condition.titledIfPresent (title : String → String) : Option Condition → Option Condition
  | none => none
  | some condition => some (condition.titled title)

/-- Bindings in whose sources every document has its title for a name. -/
def Binding.titledAll (title : String → String) : List Binding → List Binding
  | [] => []
  | ⟨name, source⟩ :: rest => ⟨name, source.titled title⟩ :: Binding.titledAll title rest
end

variable (title : String → String)

/-- A binding in whose source every document has its title for a name. -/
def Binding.titled (binding : Binding) : Binding := ⟨binding.name, binding.source.titled title⟩

@[simp] theorem Binding.titledAll_nil : titledAll title [] = [] := by
  rw [titledAll]

theorem Binding.titledAll_eq_map (bindings : List Binding) :
    Binding.titledAll title bindings = bindings.map (·.titled title) := by
  induction bindings with
  | nil => rw [titledAll_nil, List.map_nil]
  | cons binding rest ih =>
      obtain ⟨name, source⟩ := binding
      rw [titledAll, ih]
      rfl

theorem Query.unparenthesized_titled (query : Query) :
    (query.titled title).unparenthesized = query.unparenthesized.titled title := by
  induction query using Query.unparenthesized.induct with
  | case1 inner ih =>
      rw [titled, unparenthesized, unparenthesized]
      exact ih
  | case2 query other =>
      rw [Query.unparenthesized.eq_2 query other]
      cases query with
      | parenthesized inner => exact absurd rfl (other inner)
      | _ => simp [titled, unparenthesized]

theorem Query.constant?_titled (query : Query) :
    (query.titled title).constant? = query.constant? := by
  rw [constant?, constant?, unparenthesized_titled]
  cases query.unparenthesized <;> rw [titled]

end TreeQuery
