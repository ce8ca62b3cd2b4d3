import TreeQuery.Proofs.Query.Failures

/-!
# Free names

A name occurs free in a query where the query refers to it and nothing around the reference
binds it.  `Query.free` lists these occurrences from left to right, the sources of a clause
before what the clause is about.  Clauses bind as they are evaluated: the variables of `for`,
of `some` and of the `let` of an expression are seen by everything behind them, those of a
stand-alone `let` by its body only.

The free names are exactly the variables that a query can fail to find
(`Query.mayFail_unboundVariable_iff`).  So a query without free names never fails because of a
variable (`Query.evaluate_ne_unboundVariable`).
-/

set_option autoImplicit false

namespace TreeQuery

open Evaluation

/-- The names that are bound behind a clause. -/
def Binding.boundBehind (bound : List String) : List Binding → List String
  | [] => bound
  | ⟨name, _⟩ :: rest => Binding.boundBehind (name :: bound) rest

mutual
/-- The free occurrences of names in a query, from left to right. -/
def Query.free (bound : List String) : Query → List String
  | .reference name => if name ∈ bound then [] else [name]
  | .constant _ | .document _ => []
  | .parenthesized inner => inner.free bound
  | .pair left right => left.free bound ++ right.free bound
  | .step base _ _ => base.free bound
  | .element _ body => body.free bound
  | .join left right _ _ => left.free bound ++ right.free bound
  | .letIn bindings body =>
      Binding.freeApart bound bindings ++ body.free (Binding.boundBehind bound bindings)
  | .flwr bindings lets condition result =>
      let inner := Binding.boundBehind bound bindings
      let innermost := Binding.boundBehind inner lets
      Binding.freeInOrder bound bindings ++ (Binding.freeInOrder inner lets ++
        (Condition.freeIfPresent innermost condition ++ result.free innermost))

/-- The free occurrences of names in a condition, from left to right. -/
def Condition.free (bound : List String) : Condition → List String
  | .valueEq left right | .identityEq left right => left.free bound ++ right.free bound
  | .empty query => query.free bound
  | .someSatisfies bindings body =>
      Binding.freeInOrder bound bindings ++ body.free (Binding.boundBehind bound bindings)
  | .parenthesized inner | .not inner => inner.free bound
  | .and left right | .or left right => left.free bound ++ right.free bound

/-- The free occurrences of names in a condition, if there is one. -/
def Condition.freeIfPresent (bound : List String) : Option Condition → List String
  | none => []
  | some condition => condition.free bound

/-- The free occurrences of names in sources that see the variables before them. -/
def Binding.freeInOrder (bound : List String) : List Binding → List String
  | [] => []
  | ⟨name, source⟩ :: rest => source.free bound ++ Binding.freeInOrder (name :: bound) rest

/-- The free occurrences of names in sources that do not see each other's variables. -/
def Binding.freeApart (bound : List String) : List Binding → List String
  | [] => []
  | ⟨_, source⟩ :: rest => source.free bound ++ Binding.freeApart bound rest
end

/-! ## Variables that are not found -/

/-- The failures of a library are not about variables. -/
def Library.FindsVariables (library : Library) : Prop :=
  ∀ document name, library document ≠ .error (.unboundVariable name)

variable {library : Library} {name : String}

theorem bound_cons (other : String) (bound : List String) :
    (fun name => name = other ∨ name ∈ bound) = (· ∈ other :: bound) := by
  funext name
  exact propext List.mem_cons.symm

mutual
/-- **A query can fail to find exactly its free names.** -/
theorem Query.mayFail_unboundVariable_iff (apart : library.FindsVariables) : (query : Query) →
    ∀ {bound : List String},
      query.MayFail library (.unboundVariable name) (· ∈ bound) ↔ name ∈ query.free bound
  | .reference other, bound => by
      rw [Query.MayFail, Query.free]
      split
      · rename_i listed
        simp [listed]
      · rename_i unlisted
        simp [unlisted]
  | .constant _, bound => by simp [Query.MayFail, Query.free]
  | .document path, bound => by
      rw [Query.MayFail, Query.free]
      exact iff_of_false (apart _ _) List.not_mem_nil
  | .parenthesized inner, bound => by
      rw [Query.MayFail, Query.free]
      exact inner.mayFail_unboundVariable_iff apart
  | .pair left right, bound => by
      rw [Query.MayFail, Query.free, List.mem_append, left.mayFail_unboundVariable_iff apart,
        right.mayFail_unboundVariable_iff apart]
  | .step base _ _, bound => by
      rw [Query.MayFail, Query.free]
      exact base.mayFail_unboundVariable_iff apart
  | .element _ body, bound => by
      rw [Query.MayFail, Query.free]
      exact body.mayFail_unboundVariable_iff apart
  | .join left right leftTags rightTags, bound => by
      rw [Query.MayFail, Query.free, List.mem_append, left.mayFail_unboundVariable_iff apart,
        right.mayFail_unboundVariable_iff apart]
      exact or_iff_right fun arity => nomatch arity.2
  | .letIn bindings body, bound => by
      rw [Query.MayFail, Query.free, List.mem_append,
        Binding.mayFailApart_unboundVariable_iff apart bindings,
        body.mayFail_unboundVariable_iff apart]
  | .flwr bindings lets condition result, bound => by
      rw [Query.MayFail, Query.free, Binding.mayFailInOrder_unboundVariable_iff apart bindings,
        Binding.mayFailInOrder_unboundVariable_iff apart lets,
        Condition.mayFailIfPresent_unboundVariable_iff apart condition,
        result.mayFail_unboundVariable_iff apart]
      simp only [List.mem_append]

theorem Condition.mayFail_unboundVariable_iff (apart : library.FindsVariables) :
    (condition : Condition) → ∀ {bound : List String},
      condition.MayFail library (.unboundVariable name) (· ∈ bound) ↔ name ∈ condition.free bound
  | .valueEq left right, bound | .identityEq left right, bound => by
      rw [Condition.MayFail, Condition.free, List.mem_append,
        left.mayFail_unboundVariable_iff apart, right.mayFail_unboundVariable_iff apart]
  | .empty query, bound => by
      rw [Condition.MayFail, Condition.free]
      exact query.mayFail_unboundVariable_iff apart
  | .someSatisfies bindings body, bound => by
      rw [Condition.MayFail, Condition.free, List.mem_append,
        Binding.mayFailInOrder_unboundVariable_iff apart bindings,
        body.mayFail_unboundVariable_iff apart]
  | .parenthesized inner, bound | .not inner, bound => by
      rw [Condition.MayFail, Condition.free]
      exact inner.mayFail_unboundVariable_iff apart
  | .and left right, bound | .or left right, bound => by
      rw [Condition.MayFail, Condition.free, List.mem_append,
        left.mayFail_unboundVariable_iff apart, right.mayFail_unboundVariable_iff apart]

theorem Condition.mayFailIfPresent_unboundVariable_iff (apart : library.FindsVariables) :
    (condition : Option Condition) → ∀ {bound : List String},
      Condition.MayFailIfPresent library (.unboundVariable name) condition (· ∈ bound) ↔
        name ∈ Condition.freeIfPresent bound condition
  | none, bound => by
      rw [Condition.MayFailIfPresent, Condition.freeIfPresent]
      exact iff_of_false id List.not_mem_nil
  | some condition, bound => by
      rw [Condition.MayFailIfPresent, Condition.freeIfPresent]
      exact condition.mayFail_unboundVariable_iff apart

theorem Binding.mayFailInOrder_unboundVariable_iff (apart : library.FindsVariables) :
    (bindings : List Binding) → ∀ {bound : List String} {next : (String → Prop) → Prop},
      Binding.MayFailInOrder library (.unboundVariable name) bindings (· ∈ bound) next ↔
        name ∈ Binding.freeInOrder bound bindings ∨
          next (· ∈ Binding.boundBehind bound bindings)
  | [], bound, next => by
      rw [Binding.MayFailInOrder, Binding.freeInOrder, Binding.boundBehind]
      exact (or_iff_right List.not_mem_nil).symm
  | ⟨other, source⟩ :: rest, bound, next => by
      rw [Binding.MayFailInOrder, Binding.freeInOrder, Binding.boundBehind, List.mem_append,
        source.mayFail_unboundVariable_iff apart, bound_cons,
        Binding.mayFailInOrder_unboundVariable_iff apart rest, or_assoc]

theorem Binding.mayFailApart_unboundVariable_iff (apart : library.FindsVariables) :
    (bindings : List Binding) → ∀ {outer inner : List String} {next : (String → Prop) → Prop},
      Binding.MayFailApart library (.unboundVariable name) bindings (· ∈ outer) (· ∈ inner) next ↔
        name ∈ Binding.freeApart outer bindings ∨
          next (· ∈ Binding.boundBehind inner bindings)
  | [], outer, inner, next => by
      rw [Binding.MayFailApart, Binding.freeApart, Binding.boundBehind]
      exact (or_iff_right List.not_mem_nil).symm
  | ⟨other, source⟩ :: rest, outer, inner, next => by
      rw [Binding.MayFailApart, Binding.freeApart, Binding.boundBehind, List.mem_append,
        source.mayFail_unboundVariable_iff apart, bound_cons,
        Binding.mayFailApart_unboundVariable_iff apart rest, or_assoc]
end

/-- **A query without free names never fails because of a variable.** -/
theorem Query.evaluate_ne_unboundVariable (apart : library.FindsVariables) {query : Query}
    (closed : query.free [] = []) {before after : Arena} :
    query.evaluate library [] before ≠ .error (.unboundVariable name) after := by
  intro run
  have nothing : ∀ name ∈ ([] : List String), Scope.Binds [] name := List.forall_mem_nil _
  have fails : query.MayFail library (.unboundVariable name) (· ∈ []) :=
    query.evaluate_failsOnly library nothing _ _ _ run
  rw [query.mayFail_unboundVariable_iff apart, closed] at fails
  exact List.not_mem_nil fails

end TreeQuery
