import TreeQuery.Path.Basic

/-!
# Queries and conditions

A query computes a sequence of nodes.  Variables are bound by `for`, `let` and `some`
clauses; a clause is a list of bindings, and in all of them but the stand-alone `let` a
source may refer to the variables bound before it.  Conditions and queries depend on
each other.  Equality of queries is decidable; join planning compares operands with it.
-/

set_option autoImplicit false

namespace TreeQuery

mutual
/-- An expression whose value is a sequence of nodes. -/
inductive Query where
  | reference (name : String)
  | constant (value : String)
  | document (path : DocumentPath)
  | parenthesized (inner : Query)
  | pair (left right : Query)
  | step (base : Query) (axis : Axis) (path : Path)
  | element (name : String) (body : Query)
  | join (left right : Query) (leftTags rightTags : List String)
  | letIn (bindings : List Binding) (body : Query)
  | flwr (bindings lets : List Binding) (condition : Option Condition) (result : Query)

/-- An expression that holds or does not hold. -/
inductive Condition where
  | valueEq (left right : Query)
  | identityEq (left right : Query)
  | empty (query : Query)
  | someSatisfies (bindings : List Binding) (body : Condition)
  | parenthesized (inner : Condition)
  | and (left right : Condition)
  | or (left right : Condition)
  | not (inner : Condition)

/-- A variable and the query it stands for or ranges over. -/
structure Binding where
  name : String
  source : Query
end

instance : Inhabited Query := ⟨.constant ""⟩

/-- The clauses of a `for … let … where … return …` expression. -/
structure Flwr where
  bindings : List Binding
  lets : List Binding
  condition : Option Condition
  result : Query

/-- The query that the clauses make up. -/
def Flwr.toQuery (flwr : Flwr) : Query :=
  .flwr flwr.bindings flwr.lets flwr.condition flwr.result

/-! ## Sequences and conjunctions -/

/-- Joins the members of a list from the left; an empty list has no join. -/
def leftNested {α : Type} (join : α → α → α) : List α → Option α
  | [] => none
  | first :: rest => some (rest.foldl join first)

/-- The comma sequence of queries, nested to the left. -/
def Query.sequence (queries : List Query) : Option Query :=
  leftNested .pair queries

/-- The conjunction of conditions, nested to the left. -/
def Condition.conjunction (conditions : List Condition) : Option Condition :=
  leftNested .and conditions

/-- A query without the parentheses around the whole of it. -/
def Query.unparenthesized : Query → Query
  | .parenthesized inner => inner.unparenthesized
  | query => query

/-! ## Equality -/

mutual
/-- Whether two queries are the same tree. -/
def Query.same : Query → Query → Bool
  | .reference a, .reference b => a == b
  | .constant a, .constant b => a == b
  | .document a, .document b => a == b
  | .parenthesized a, .parenthesized b => a.same b
  | .pair a b, .pair c d => a.same c && b.same d
  | .step a x p, .step b y q => a.same b && x == y && p == q
  | .element m a, .element n b => m == n && a.same b
  | .join a b s t, .join c d u v => a.same c && b.same d && s == u && t == v
  | .letIn bs a, .letIn cs b => Binding.sameAll bs cs && a.same b
  | .flwr bs ls c r, .flwr bs' ls' c' r' =>
      Binding.sameAll bs bs' && Binding.sameAll ls ls' && Condition.sameOptional c c' && r.same r'
  | _, _ => false

/-- Whether two conditions are the same tree. -/
def Condition.same : Condition → Condition → Bool
  | .valueEq a b, .valueEq c d => a.same c && b.same d
  | .identityEq a b, .identityEq c d => a.same c && b.same d
  | .empty a, .empty b => a.same b
  | .someSatisfies bs a, .someSatisfies cs b => Binding.sameAll bs cs && a.same b
  | .parenthesized a, .parenthesized b => a.same b
  | .and a b, .and c d => a.same c && b.same d
  | .or a b, .or c d => a.same c && b.same d
  | .not a, .not b => a.same b
  | _, _ => false

/-- Whether two lists of bindings are the same. -/
def Binding.sameAll : List Binding → List Binding → Bool
  | [], [] => true
  | ⟨m, a⟩ :: bs, ⟨n, b⟩ :: cs => m == n && a.same b && Binding.sameAll bs cs
  | _, _ => false

/-- Whether two optional conditions are the same. -/
def Condition.sameOptional : Option Condition → Option Condition → Bool
  | none, none => true
  | some a, some b => a.same b
  | _, _ => false
end

mutual
theorem Query.same_iff_eq : (left right : Query) → (left.same right = true ↔ left = right)
  | .reference _, right => by cases right <;> simp [Query.same]
  | .constant _, right => by cases right <;> simp [Query.same]
  | .document _, right => by cases right <;> simp [Query.same]
  | .parenthesized a, right => by
      cases right with
      | parenthesized b => simp [Query.same, Query.same_iff_eq a b]
      | _ => simp [Query.same]
  | .pair a b, right => by
      cases right with
      | pair c d => simp [Query.same, Query.same_iff_eq a c, Query.same_iff_eq b d]
      | _ => simp [Query.same]
  | .step a _ _, right => by
      cases right with
      | step b _ _ => simp [Query.same, Query.same_iff_eq a b, and_assoc]
      | _ => simp [Query.same]
  | .element _ a, right => by
      cases right with
      | element _ b => simp [Query.same, Query.same_iff_eq a b]
      | _ => simp [Query.same]
  | .join a b _ _, right => by
      cases right with
      | join c d _ _ =>
          simp [Query.same, Query.same_iff_eq a c, Query.same_iff_eq b d, and_assoc]
      | _ => simp [Query.same]
  | .letIn bs a, right => by
      cases right with
      | letIn cs b => simp [Query.same, Binding.sameAll_iff_eq bs cs, Query.same_iff_eq a b]
      | _ => simp [Query.same]
  | .flwr bs ls c r, right => by
      cases right with
      | flwr bs' ls' c' r' =>
          simp [Query.same, Binding.sameAll_iff_eq bs bs', Binding.sameAll_iff_eq ls ls',
            Condition.sameOptional_iff_eq c c', Query.same_iff_eq r r', and_assoc]
      | _ => simp [Query.same]

theorem Condition.same_iff_eq :
    (left right : Condition) → (left.same right = true ↔ left = right)
  | .valueEq a b, right => by
      cases right with
      | valueEq c d => simp [Condition.same, Query.same_iff_eq a c, Query.same_iff_eq b d]
      | _ => simp [Condition.same]
  | .identityEq a b, right => by
      cases right with
      | identityEq c d => simp [Condition.same, Query.same_iff_eq a c, Query.same_iff_eq b d]
      | _ => simp [Condition.same]
  | .empty a, right => by
      cases right with
      | empty b => simp [Condition.same, Query.same_iff_eq a b]
      | _ => simp [Condition.same]
  | .someSatisfies bs a, right => by
      cases right with
      | someSatisfies cs b =>
          simp [Condition.same, Binding.sameAll_iff_eq bs cs, Condition.same_iff_eq a b]
      | _ => simp [Condition.same]
  | .parenthesized a, right => by
      cases right with
      | parenthesized b => simp [Condition.same, Condition.same_iff_eq a b]
      | _ => simp [Condition.same]
  | .and a b, right => by
      cases right with
      | and c d => simp [Condition.same, Condition.same_iff_eq a c, Condition.same_iff_eq b d]
      | _ => simp [Condition.same]
  | .or a b, right => by
      cases right with
      | or c d => simp [Condition.same, Condition.same_iff_eq a c, Condition.same_iff_eq b d]
      | _ => simp [Condition.same]
  | .not a, right => by
      cases right with
      | not b => simp [Condition.same, Condition.same_iff_eq a b]
      | _ => simp [Condition.same]

theorem Binding.sameAll_iff_eq :
    (left right : List Binding) → (Binding.sameAll left right = true ↔ left = right)
  | [], right => by cases right <;> simp [Binding.sameAll]
  | ⟨_, a⟩ :: bs, right => by
      cases right with
      | nil => simp [Binding.sameAll]
      | cons binding cs =>
          cases binding with
          | mk _ b => simp [Binding.sameAll, Query.same_iff_eq a b, Binding.sameAll_iff_eq bs cs]

theorem Condition.sameOptional_iff_eq :
    (left right : Option Condition) → (Condition.sameOptional left right = true ↔ left = right)
  | none, right => by cases right <;> simp [Condition.sameOptional]
  | some a, right => by
      cases right with
      | none => simp [Condition.sameOptional]
      | some b => simp [Condition.sameOptional, Condition.same_iff_eq a b]
end

instance : DecidableEq Query := fun left right =>
  decidable_of_iff (left.same right = true) (Query.same_iff_eq left right)

instance : DecidableEq Condition := fun left right =>
  decidable_of_iff (left.same right = true) (Condition.same_iff_eq left right)

instance : DecidableEq Binding := fun left right =>
  decidable_of_iff (Binding.sameAll [left] [right] = true)
    ((Binding.sameAll_iff_eq [left] [right]).trans (by simp))

deriving instance DecidableEq for Flwr

end TreeQuery
