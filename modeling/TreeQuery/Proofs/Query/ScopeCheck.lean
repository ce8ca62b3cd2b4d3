import TreeQuery.Proofs.JoinPlan.Closed
import TreeQuery.Proofs.Query.Evaluator
import TreeQuery.Proofs.Query.StrictRenaming

/-!
# Strict renaming as a scope check

Strict renaming refuses exactly the queries with free names, and names the first of them.  No
evaluator ever fails because of a variable on a query that it accepts, over any documents: not as
it was written, not renamed and not optimized (`Query.renaming_checksScopes`).
-/

set_option autoImplicit false

namespace TreeQuery

open Renaming

/-! ## Free names and titles -/

section

variable (title : String → String)

theorem Binding.boundBehind_titledAll (bindings : List Binding) : ∀ {bound : List String},
    Binding.boundBehind bound (Binding.titledAll title bindings) =
      Binding.boundBehind bound bindings := by
  induction bindings with
  | nil =>
      intro bound
      rw [titledAll]
  | cons binding rest ih =>
      intro bound
      obtain ⟨name, source⟩ := binding
      rw [titledAll, boundBehind, boundBehind, ih]

mutual
/-- The titles of documents do not change which names occur free. -/
theorem Query.free_titled : (query : Query) → ∀ {bound : List String},
    (query.titled title).free bound = query.free bound
  | .reference _, _ | .constant _, _ => by rw [Query.titled]
  | .document _, _ => by rw [Query.titled, Query.free, Query.free]
  | .parenthesized inner, _ => by rw [Query.titled, Query.free, Query.free, inner.free_titled]
  | .pair left right, _ => by
      rw [Query.titled, Query.free, Query.free, left.free_titled, right.free_titled]
  | .step base _ _, _ => by rw [Query.titled, Query.free, Query.free, base.free_titled]
  | .element _ body, _ => by rw [Query.titled, Query.free, Query.free, body.free_titled]
  | .join left right _ _, _ => by
      rw [Query.titled, Query.free, Query.free, left.free_titled, right.free_titled]
  | .letIn bindings body, _ => by
      rw [Query.titled, Query.free, Query.free, Binding.freeApart_titledAll bindings,
        Binding.boundBehind_titledAll, body.free_titled]
  | .flwr bindings lets condition result, _ => by
      rw [Query.titled, Query.free, Query.free, Binding.freeInOrder_titledAll bindings,
        Binding.freeInOrder_titledAll lets, Condition.free_titledIfPresent condition,
        Binding.boundBehind_titledAll, Binding.boundBehind_titledAll, result.free_titled]

theorem Condition.free_titled : (condition : Condition) → ∀ {bound : List String},
    (condition.titled title).free bound = condition.free bound
  | .valueEq left right, _ | .identityEq left right, _ => by
      rw [Condition.titled, Condition.free, Condition.free, left.free_titled, right.free_titled]
  | .empty query, _ => by rw [Condition.titled, Condition.free, Condition.free, query.free_titled]
  | .someSatisfies bindings body, _ => by
      rw [Condition.titled, Condition.free, Condition.free,
        Binding.freeInOrder_titledAll bindings, Binding.boundBehind_titledAll, body.free_titled]
  | .parenthesized inner, _ | .not inner, _ => by
      rw [Condition.titled, Condition.free, Condition.free, inner.free_titled]
  | .and left right, _ | .or left right, _ => by
      rw [Condition.titled, Condition.free, Condition.free, left.free_titled, right.free_titled]

theorem Condition.free_titledIfPresent : (condition : Option Condition) →
    ∀ {bound : List String}, Condition.freeIfPresent bound
      (Condition.titledIfPresent title condition) = Condition.freeIfPresent bound condition
  | none, _ => by rw [Condition.titledIfPresent]
  | some condition, _ => by
      rw [Condition.titledIfPresent, Condition.freeIfPresent, Condition.freeIfPresent,
        condition.free_titled]

theorem Binding.freeInOrder_titledAll : (bindings : List Binding) → ∀ {bound : List String},
    Binding.freeInOrder bound (Binding.titledAll title bindings) =
      Binding.freeInOrder bound bindings
  | [], _ => by rw [Binding.titledAll_nil]
  | ⟨_, source⟩ :: rest, _ => by
      rw [Binding.titledAll, Binding.freeInOrder, Binding.freeInOrder, source.free_titled,
        Binding.freeInOrder_titledAll rest]

theorem Binding.freeApart_titledAll : (bindings : List Binding) → ∀ {bound : List String},
    Binding.freeApart bound (Binding.titledAll title bindings) = Binding.freeApart bound bindings
  | [], _ => by rw [Binding.titledAll_nil]
  | ⟨_, source⟩ :: rest, _ => by
      rw [Binding.titledAll, Binding.freeApart, Binding.freeApart, source.free_titled,
        Binding.freeApart_titledAll rest]
end

end

/-! ## Evaluators -/

/-- The documents of a table do not fail because of a variable. -/
theorem Collection.findsVariables_shelf (collection : Collection)
    (table : List (String × Holding)) : (collection.shelf table).library.FindsVariables := by
  intro document name failed
  have other : ∀ failure, (collection.shelf table).library document = .error failure →
      failure ≠ .unboundVariable name :=
    fun _ => of_missing_on_shelf (fun _ => nofun) fun _ _ => nofun
  exact other _ failed rfl

/-- What an evaluator has kept adds no failures to those of a library. -/
theorem Library.FindsVariables.standing {library : Library} (apart : library.FindsVariables)
    (evaluator : Evaluator) : (evaluator.standing library).FindsVariables := by
  intro document name failed
  rw [Evaluator.standing] at failed
  split at failed
  · cases failed
  · exact apart document name failed

/-- An evaluator never fails because of a variable on a query without free names. -/
theorem Session.evaluate_ne_unboundVariable {resolver : Resolver}
    (apart : resolver.library.FindsVariables) {query : Query} (closed : query.free [] = [])
    {name : String} {before after : Evaluator} :
    Session.evaluate resolver query [] before ≠ .error (.unboundVariable name) after := by
  intro run
  have follows : Session.Follows resolver.library Evaluator.Knows before
      (Session.evaluate resolver query [])
      ((query.titled resolver.title).evaluate (before.standing resolver.library) []) :=
    Session.evaluate_follows query rfl .nil
  have titledClosed : (query.titled resolver.title).free [] = [] := by
    rw [query.free_titled, closed]
  exact Query.evaluate_ne_unboundVariable (apart.standing before) titledClosed
    (follows.evaluated_error run)

/-- **Strict renaming checks scopes.**  It fails exactly if a name occurs free, with the first
one.  Otherwise it renames as permissive renaming does, and no evaluator ever fails because of a
variable on the query, on the renamed query or on what optimizing makes of that, whatever texts
and documents stand under names. -/
theorem Query.renaming_checksScopes (query : Query) (counter : Nat) :
    (∀ failure, (∃ later, (query.renaming true).run counter = .error failure later) ↔
      ∃ name, (query.free []).head? = some name ∧ failure = .unboundVariable name) ∧
    ∀ renamed later, (query.renaming true).run counter = .ok renamed later →
      (query.renaming false).run counter = .ok renamed later ∧
      ∀ (creations : List Creation) (table : List (String × Holding)),
        let resolver := (Collection.empty.createAll creations).resolver table
        ∀ checked ∈ [query, renamed, renamed.optimize.query], ∀ before name after,
          Session.evaluate resolver checked [] before ≠ .error (.unboundVariable name) after := by
  have checks := query.renaming_checks
  refine ⟨fun failure => checks.fails_iff, fun renamed later run => ?_⟩
  obtain ⟨closed, permissive, renamedClosed⟩ := checks.of_ok run
  refine ⟨permissive, ?_⟩
  intro creations table resolver checked listed before name after
  have checkedClosed : checked.free [] = [] := by
    rcases listed with _ | ⟨_, _ | ⟨_, _ | ⟨_, ⟨⟩⟩⟩⟩
    · exact closed
    · exact renamedClosed
    · exact Query.closed_optimize renamedClosed
  exact Session.evaluate_ne_unboundVariable (Collection.findsVariables_shelf _ table) checkedClosed

/-- A query that is accepted and whose two variables are joined. -/
theorem Query.renaming_checksScopes_joined :
    let query : Query := .flwr [⟨"x", .document ⟨"f", .child, .tag "a"⟩⟩,
      ⟨"y", .document ⟨"g", .child, .tag "a"⟩⟩] []
      (some (.valueEq (.reference "x") (.reference "y"))) (.element "p" (.reference "x"))
    ∃ renamed later, (query.renaming true).run 0 = .ok renamed later ∧
      renamed.optimize.replaced = 1 ∧ (query.renaming false).run 0 = .ok renamed later ∧
      ∀ (creations : List Creation) (table : List (String × Holding)),
        let resolver := (Collection.empty.createAll creations).resolver table
        ∀ checked ∈ [query, renamed, renamed.optimize.query], ∀ before name after,
          Session.evaluate resolver checked [] before ≠ .error (.unboundVariable name) after := by
  intro query
  have run : (query.renaming true).run 0 = .ok (.flwr [⟨"v1", .document ⟨"f", .child, .tag "a"⟩⟩,
      ⟨"v2", .document ⟨"g", .child, .tag "a"⟩⟩] []
      (some (.valueEq (.reference "v1") (.reference "v2"))) (.element "p" (.reference "v1"))) 2 :=
    rfl
  exact ⟨_, _, run, by decide +kernel, (query.renaming_checksScopes 0).2 _ _ run⟩

end TreeQuery
