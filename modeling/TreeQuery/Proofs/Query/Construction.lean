import TreeQuery.Proofs.Query.Evaluation

/-!
# Evaluations only construct

Whatever an evaluation does, and whether it ends with items or with a failure, the arena it
leaves behind comes from the arena it found by constructing texts and elements
(`Query.evaluate_constructs`).  So no evaluation changes what an existing node says, and
every arena of an evaluation is reachable.
-/

set_option autoImplicit false

namespace TreeQuery

open Evaluation

variable {α β : Type} {library : Library}

namespace Evaluation

/-- The arena that an evaluation leaves behind comes from the one it found. -/
def Constructs (evaluation : Evaluation α) : Prop :=
  ∀ arena, match evaluation arena with
    | .ok _ later | .error _ later => arena.Develops later

theorem Constructs.ok {evaluation : Evaluation α} (constructs : Constructs evaluation)
    {before after : Arena} {value : α} (run : evaluation before = .ok value after) :
    before.Develops after := by
  have develops := constructs before
  rw [run] at develops
  exact develops

theorem constructs_pure (value : α) : Constructs (pure value : Evaluation α) :=
  fun _ => .refl

theorem constructs_throw (failure : Failure) : Constructs (throw failure : Evaluation α) :=
  fun _ => .refl

theorem constructs_observe (look : View Home → α) : Constructs (observe library look) :=
  fun _ => .refl

theorem constructs_bind {evaluation : Evaluation α} {next : α → Evaluation β}
    (first : Constructs evaluation) (second : ∀ value, Constructs (next value)) :
    Constructs (evaluation >>= next) := by
  intro arena
  have develops := first arena
  rw [bind_apply]
  cases run : evaluation arena with
  | error failure later =>
      rw [run] at develops
      exact develops
  | ok value later =>
      rw [run] at develops
      have further := second value later
      dsimp only at develops ⊢
      cases rerun : next value later with
      | ok _ last | error _ last =>
          rw [rerun] at further
          exact develops.trans further

theorem constructs_guarded {condition : Evaluation Bool} {result : Evaluation (List β)}
    (first : Constructs condition) (second : Constructs result) :
    Constructs (do if ← condition then result else return []) := by
  refine constructs_bind first fun yes => ?_
  cases yes with
  | true => exact second
  | false => exact constructs_pure _

theorem constructs_collect {visit : α → Evaluation (List β)}
    (visits : ∀ item, Constructs (visit item)) (items : List α) :
    Constructs (collect visit items) := by
  induction items with
  | nil => exact constructs_pure _
  | cons item rest ih =>
      exact constructs_bind (visits item) fun _ => constructs_bind ih fun _ => constructs_pure _

theorem constructs_any {visit : α → Evaluation Bool} (visits : ∀ item, Constructs (visit item))
    (items : List α) : Constructs (any visit items) := by
  induction items with
  | nil => exact constructs_pure _
  | cons item rest ih =>
      refine constructs_bind (visits item) fun yes => ?_
      cases yes with
      | true => exact constructs_pure _
      | false => exact ih

theorem constructs_text (value : String) : Constructs (constructText value) :=
  fun _ => .createText value .refl

theorem constructs_element (name : String) (items : List Item) :
    Constructs (constructElement library name items) :=
  fun _ => .createElement name _ .refl

theorem constructs_documentPath (path : DocumentPath) :
    Constructs (documentPath library path) := by
  refine constructs_bind ?_ fun _ => constructs_observe _
  unfold documentNode
  split
  · exact constructs_pure _
  · exact constructs_throw _

theorem constructs_join (order : KeyOrder) {left right : Evaluation (List Item)}
    (first : Constructs left) (second : Constructs right) (leftTags rightTags : List String) :
    Constructs (join library order left right leftTags rightTags) := by
  unfold join
  split
  · refine constructs_bind first fun items => constructs_bind second fun others => ?_
    refine constructs_bind (constructs_observe _) fun pairs =>
      constructs_collect (fun positions => ?_) _
    unfold joinTuple
    split
    · exact constructs_bind (constructs_observe _) fun _ =>
        constructs_bind (constructs_element _ _) fun _ => constructs_pure _
    · exact constructs_pure _
  · exact constructs_throw _

end Evaluation

mutual
/-- **Evaluating a query only constructs nodes.** -/
theorem Query.evaluate_constructs (library : Library) :
    (query : Query) → ∀ scope, Constructs (query.evaluate library scope)
  | .reference name, scope => by
      rw [Query.evaluate]
      split
      · exact constructs_pure _
      · exact constructs_throw _
  | .constant value, scope => by
      rw [Query.evaluate]
      exact constructs_bind (constructs_text value) fun _ => constructs_pure _
  | .document path, scope => by
      rw [Query.evaluate]
      exact constructs_documentPath path
  | .parenthesized inner, scope => by
      rw [Query.evaluate]
      exact inner.evaluate_constructs library scope
  | .pair left right, scope => by
      rw [Query.evaluate]
      exact constructs_bind (left.evaluate_constructs library scope) fun _ =>
        constructs_bind (right.evaluate_constructs library scope) fun _ => constructs_pure _
  | .step base axis path, scope => by
      rw [Query.evaluate]
      exact constructs_bind (base.evaluate_constructs library scope) fun _ =>
        constructs_observe _
  | .element name body, scope => by
      rw [Query.evaluate]
      exact constructs_bind (body.evaluate_constructs library scope) fun _ =>
        constructs_bind (constructs_element _ _) fun _ => constructs_pure _
  | .join left right leftTags rightTags, scope => by
      rw [Query.evaluate]
      exact constructs_join _ (left.evaluate_constructs library scope)
        (right.evaluate_constructs library scope) _ _
  | .letIn bindings body, scope => by
      rw [Query.evaluate]
      exact constructs_bind (Binding.bindApart_constructs library bindings scope scope)
        fun inner => body.evaluate_constructs library inner
  | .flwr bindings lets condition result, scope => by
      rw [Query.evaluate]
      refine Binding.collectTuples_constructs library bindings scope _ fun scope => ?_
      refine Binding.bindInOrder_constructs library lets scope _ fun scope => ?_
      exact constructs_guarded (Condition.holdsIfPresent_constructs library condition scope)
        (result.evaluate_constructs library scope)

theorem Condition.holds_constructs (library : Library) :
    (condition : Condition) → ∀ scope, Constructs (condition.holds library scope)
  | .valueEq left right, scope => by
      rw [Condition.holds]
      split
      · exact constructs_pure _
      · exact constructs_bind (right.evaluate_constructs library scope) fun _ =>
          constructs_observe _
      · exact constructs_bind (left.evaluate_constructs library scope) fun _ =>
          constructs_observe _
      · exact constructs_bind (left.evaluate_constructs library scope) fun _ =>
          constructs_bind (right.evaluate_constructs library scope) fun _ => constructs_observe _
  | .identityEq left right, scope => by
      rw [Condition.holds]
      exact constructs_bind (left.evaluate_constructs library scope) fun _ =>
        constructs_bind (right.evaluate_constructs library scope) fun _ => constructs_pure _
  | .empty query, scope => by
      rw [Condition.holds]
      exact constructs_bind (query.evaluate_constructs library scope) fun _ => constructs_pure _
  | .someSatisfies bindings body, scope => by
      rw [Condition.holds]
      exact Binding.anyTuple_constructs library bindings scope _ fun scope =>
        body.holds_constructs library scope
  | .parenthesized inner, scope => by
      rw [Condition.holds]
      exact inner.holds_constructs library scope
  | .and left right, scope => by
      rw [Condition.holds]
      refine constructs_bind (left.holds_constructs library scope) fun yes => ?_
      cases yes with
      | true => exact right.holds_constructs library scope
      | false => exact constructs_pure _
  | .or left right, scope => by
      rw [Condition.holds]
      refine constructs_bind (left.holds_constructs library scope) fun yes => ?_
      cases yes with
      | true => exact constructs_pure _
      | false => exact right.holds_constructs library scope
  | .not inner, scope => by
      rw [Condition.holds]
      exact constructs_bind (inner.holds_constructs library scope) fun _ => constructs_pure _

theorem Condition.holdsIfPresent_constructs (library : Library) :
    (condition : Option Condition) → ∀ scope,
      Constructs (Condition.holdsIfPresent library condition scope)
  | none, scope => by
      rw [Condition.holdsIfPresent]
      exact constructs_pure _
  | some condition, scope => by
      rw [Condition.holdsIfPresent]
      exact condition.holds_constructs library scope

theorem Binding.collectTuples_constructs (library : Library) : (bindings : List Binding) →
    ∀ scope visit, (∀ scope, Constructs (visit scope)) →
      Constructs (Binding.collectTuples library bindings scope visit)
  | [], scope, visit, visits => by
      rw [Binding.collectTuples]
      exact visits scope
  | ⟨name, source⟩ :: rest, scope, visit, visits => by
      rw [Binding.collectTuples]
      exact constructs_bind (source.evaluate_constructs library scope) fun items =>
        constructs_collect
          (fun _ => Binding.collectTuples_constructs library rest _ visit visits) items

theorem Binding.anyTuple_constructs (library : Library) : (bindings : List Binding) →
    ∀ scope visit, (∀ scope, Constructs (visit scope)) →
      Constructs (Binding.anyTuple library bindings scope visit)
  | [], scope, visit, visits => by
      rw [Binding.anyTuple]
      exact visits scope
  | ⟨name, source⟩ :: rest, scope, visit, visits => by
      rw [Binding.anyTuple]
      exact constructs_bind (source.evaluate_constructs library scope) fun items =>
        constructs_any (fun _ => Binding.anyTuple_constructs library rest _ visit visits) items

theorem Binding.bindInOrder_constructs (library : Library) : (bindings : List Binding) →
    ∀ scope visit, (∀ scope, Constructs (visit scope)) →
      Constructs (Binding.bindInOrder library bindings scope visit)
  | [], scope, visit, visits => by
      rw [Binding.bindInOrder]
      exact visits scope
  | ⟨name, source⟩ :: rest, scope, visit, visits => by
      rw [Binding.bindInOrder]
      exact constructs_bind (source.evaluate_constructs library scope) fun _ =>
        Binding.bindInOrder_constructs library rest _ visit visits

theorem Binding.bindApart_constructs (library : Library) : (bindings : List Binding) →
    ∀ outer inner, Constructs (Binding.bindApart library bindings outer inner)
  | [], outer, inner => by
      rw [Binding.bindApart]
      exact constructs_pure _
  | ⟨name, source⟩ :: rest, outer, inner => by
      rw [Binding.bindApart]
      exact constructs_bind (source.evaluate_constructs library outer) fun _ =>
        Binding.bindApart_constructs library rest outer _
end

end TreeQuery
