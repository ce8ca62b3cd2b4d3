import TreeQuery.Proofs.JoinPlan.Soundness

/-!
# Replacing `for` expressions

Optimizing a query puts other queries in the place of some of its `for` expressions and
leaves the rest of the query as it is.  `Query.replace` does that for any choice of
replacements: the choice that join planning makes gives the optimized query
(`optimize_query`), and the choice of none gives the query itself (`replace_none`).

What replaces a `for` expression is another one, because it ranges over joined tuples and no
eligible expression does (`Flwr.toJoins_ne`).  So replacements are counted exactly if the
query changes (`optimize_replaced_eq_zero`).
-/

set_option autoImplicit false

namespace TreeQuery

/-- A choice of `for` expressions and of what replaces them. -/
abbrev Replacements : Type := Flwr → Option Query

mutual
/-- A query with `for` expressions replaced; what is replaced is not looked into. -/
def Query.replace (replacements : Replacements) : Query → Query
  | .reference name => .reference name
  | .constant value => .constant value
  | .document path => .document path
  | .parenthesized inner => .parenthesized (inner.replace replacements)
  | .pair left right => .pair (left.replace replacements) (right.replace replacements)
  | .step base axis path => .step (base.replace replacements) axis path
  | .element name body => .element name (body.replace replacements)
  | .join left right leftTags rightTags =>
      .join (left.replace replacements) (right.replace replacements) leftTags rightTags
  | .letIn bindings body =>
      .letIn (Binding.replaceAll replacements bindings) (body.replace replacements)
  | .flwr bindings lets condition result =>
      (replacements ⟨bindings, lets, condition, result⟩).getD
        (.flwr (Binding.replaceAll replacements bindings) (Binding.replaceAll replacements lets)
          (Condition.replaceIfPresent replacements condition) (result.replace replacements))

/-- A condition with `for` expressions replaced. -/
def Condition.replace (replacements : Replacements) : Condition → Condition
  | .valueEq left right => .valueEq (left.replace replacements) (right.replace replacements)
  | .identityEq left right => .identityEq (left.replace replacements) (right.replace replacements)
  | .empty query => .empty (query.replace replacements)
  | .someSatisfies bindings body =>
      .someSatisfies (Binding.replaceAll replacements bindings) (body.replace replacements)
  | .parenthesized inner => .parenthesized (inner.replace replacements)
  | .and left right => .and (left.replace replacements) (right.replace replacements)
  | .or left right => .or (left.replace replacements) (right.replace replacements)
  | .not inner => .not (inner.replace replacements)

/-- A condition with `for` expressions replaced, if there is one. -/
def Condition.replaceIfPresent (replacements : Replacements) : Option Condition → Option Condition
  | none => none
  | some condition => some (condition.replace replacements)

/-- Bindings with `for` expressions of their sources replaced. -/
def Binding.replaceAll (replacements : Replacements) : List Binding → List Binding
  | [] => []
  | ⟨name, source⟩ :: rest =>
      ⟨name, source.replace replacements⟩ :: Binding.replaceAll replacements rest
end

/-- The replacements that join planning finds. -/
def Replacements.joins : Replacements := fun flwr => flwr.toJoins.toOption

theorem Replacements.joins_eq_some {flwr : Flwr} {query : Query} :
    Replacements.joins flwr = some query ↔ flwr.toJoins = .ok query := by
  rw [Replacements.joins]
  cases flwr.toJoins <;> simp [Except.toOption]

/-- Replacements that join planning finds too. -/
def Replacements.Planned (replacements : Replacements) : Prop :=
  ∀ flwr query, replacements flwr = some query → flwr.toJoins = .ok query

theorem Replacements.planned_joins : Replacements.joins.Planned :=
  fun _ _ => Replacements.joins_eq_some.mp

theorem Replacements.planned_none : Replacements.Planned fun _ => none :=
  nofun

/-! ## No replacements -/

mutual
/-- A query in which nothing is replaced stays the same. -/
theorem Query.replace_none : (query : Query) → query.replace (fun _ => none) = query
  | .reference _ | .constant _ | .document _ => by rw [Query.replace]
  | .parenthesized inner => by rw [Query.replace, inner.replace_none]
  | .pair left right => by rw [Query.replace, left.replace_none, right.replace_none]
  | .step base _ _ => by rw [Query.replace, base.replace_none]
  | .element _ body => by rw [Query.replace, body.replace_none]
  | .join left right _ _ => by rw [Query.replace, left.replace_none, right.replace_none]
  | .letIn bindings body => by
      rw [Query.replace, Binding.replaceAll_none bindings, body.replace_none]
  | .flwr bindings lets condition result => by
      rw [Query.replace, Option.getD_none, Binding.replaceAll_none bindings,
        Binding.replaceAll_none lets, Condition.replaceIfPresent_none condition,
        result.replace_none]

theorem Condition.replace_none : (condition : Condition) →
    condition.replace (fun _ => none) = condition
  | .valueEq left right => by rw [Condition.replace, left.replace_none, right.replace_none]
  | .identityEq left right => by rw [Condition.replace, left.replace_none, right.replace_none]
  | .empty query => by rw [Condition.replace, query.replace_none]
  | .someSatisfies bindings body => by
      rw [Condition.replace, Binding.replaceAll_none bindings, body.replace_none]
  | .parenthesized inner => by rw [Condition.replace, inner.replace_none]
  | .and left right => by rw [Condition.replace, left.replace_none, right.replace_none]
  | .or left right => by rw [Condition.replace, left.replace_none, right.replace_none]
  | .not inner => by rw [Condition.replace, inner.replace_none]

theorem Condition.replaceIfPresent_none : (condition : Option Condition) →
    Condition.replaceIfPresent (fun _ => none) condition = condition
  | none => by rw [Condition.replaceIfPresent]
  | some condition => by rw [Condition.replaceIfPresent, condition.replace_none]

theorem Binding.replaceAll_none : (bindings : List Binding) →
    Binding.replaceAll (fun _ => none) bindings = bindings
  | [] => by rw [Binding.replaceAll]
  | ⟨_, source⟩ :: rest => by
      rw [Binding.replaceAll, source.replace_none, Binding.replaceAll_none rest]
end

/-! ## The replacements of join planning -/

namespace JoinPlan

/-- A chain of joins is no source of an eligible expression. -/
theorem not_isSource_joinChain {bindings : List Binding} {conditions : List Condition}
    {keys : List KeyField} : (stages : List (Query × List (String × String))) →
    ∀ {first : Query}, groupQuery bindings conditions keys = .ok first →
      ¬IsSource (joinChain first stages) := by
  have joined : ∀ (stages : List (Query × List (String × String))) (left right : Query)
      (leftTags rightTags : List String),
      ¬IsSource (joinChain (.join left right leftTags rightTags) stages) := by
    intro stages
    induction stages with
    | nil =>
        intro left right leftTags rightTags isSource
        cases isSource
    | cons stage rest ih =>
        intro left right leftTags rightTags
        rw [joinChain, List.foldl_cons]
        exact ih _ _ _ _
  intro stages first planned isSource
  cases stages with
  | nil =>
      rw [groupQuery] at planned
      split at planned
      · cases planned
      · obtain rfl := Except.ok.inj planned
        cases isSource
  | cons stage rest =>
      rw [joinChain, List.foldl_cons] at isSource
      exact joined rest _ _ _ _ isSource

end JoinPlan

open JoinPlan

/-- **The joins for an expression are not the expression itself.** -/
theorem Flwr.toJoins_ne {flwr : Flwr} {query : Query} (rewritten : flwr.toJoins = .ok query) :
    query ≠ flwr.toQuery := by
  obtain ⟨plan, rewrites⟩ := toJoins_ok rewritten
  obtain ⟨tuple, first, stages, _, _, planned, _, rfl⟩ := rewrites.chain
  intro same
  rw [toQuery, Query.flwr.injEq, ← rewrites.bindings] at same
  have found : plan.bindings[0]? = some ⟨tuple, joinChain first stages⟩ := by
    rw [← same.1]
    rfl
  exact not_isSource_joinChain stages planned (rewrites.areParents.source found)

namespace JoinPlan

/-- A counting computation ends with a value, and counts something unless a condition holds. -/
def Counts {α : Type} (counting : Counting α) (value : α) (unchanged : Prop) : Prop :=
  ∀ count, ∃ added, counting.run count = (value, count + added) ∧ (added = 0 ↔ unchanged)

theorem Counts.pure {α : Type} (value : α) : Counts (Pure.pure value) value True :=
  fun _ => ⟨0, rfl, iff_of_true rfl trivial⟩

theorem Counts.bind {α β : Type} {counting : Counting α} {value : α} {next : α → Counting β}
    {result : β} {unchanged unchangedNext : Prop} (counts : Counts counting value unchanged)
    (continues : Counts (next value) result unchangedNext) :
    Counts (counting >>= next) result (unchanged ∧ unchangedNext) := by
  intro count
  obtain ⟨added, first, none⟩ := counts count
  obtain ⟨addedNext, second, noneNext⟩ := continues (count + added)
  refine ⟨added + addedNext, ?_, ?_⟩
  · rw [StateT.run_bind, first, ← Nat.add_assoc]
    exact second
  · rw [Nat.add_eq_zero_iff, none, noneNext]

theorem Counts.congr {α : Type} {counting : Counting α} {value : α} {unchanged same : Prop}
    (counts : Counts counting value unchanged) (iff : unchanged ↔ same) :
    Counts counting value same := by
  intro count
  obtain ⟨added, run, none⟩ := counts count
  exact ⟨added, run, none.trans iff⟩

end JoinPlan

mutual
/-- Optimizing replaces what join planning replaces, and counts whether the query changes. -/
theorem Query.optimizing_counts : (query : Query) →
    Counts query.optimizing (query.replace .joins) (query.replace .joins = query)
  | .reference _ | .constant _ | .document _ => by
      rw [Query.optimizing, Query.replace]
      exact (Counts.pure _).congr (iff_of_true trivial rfl)
  | .parenthesized inner => by
      rw [Query.optimizing, Query.replace, Query.parenthesized.injEq]
      exact Counts.congr (inner.optimizing_counts.bind (.pure _)) (iff_of_eq (and_true _))
  | .pair left right => by
      rw [Query.optimizing, Query.replace, Query.pair.injEq]
      refine Counts.congr (left.optimizing_counts.bind (right.optimizing_counts.bind (.pure _))) ?_
      rw [and_true]
  | .step base _ _ => by
      rw [Query.optimizing, Query.replace, Query.step.injEq]
      refine Counts.congr (base.optimizing_counts.bind (.pure _)) ?_
      simp only [and_true]
  | .element _ body => by
      rw [Query.optimizing, Query.replace, Query.element.injEq]
      refine Counts.congr (body.optimizing_counts.bind (.pure _)) ?_
      simp only [and_true, true_and]
  | .join left right _ _ => by
      rw [Query.optimizing, Query.replace, Query.join.injEq]
      refine Counts.congr (left.optimizing_counts.bind (right.optimizing_counts.bind (.pure _))) ?_
      simp only [and_true]
  | .letIn bindings body => by
      rw [Query.optimizing, Query.replace, Query.letIn.injEq]
      refine Counts.congr ((Binding.optimizingAll_counts bindings).bind
        (body.optimizing_counts.bind (.pure _))) ?_
      rw [and_true]
  | .flwr bindings lets condition result => by
      rw [Query.optimizing, Query.replace, Replacements.joins]
      cases planned : Flwr.toJoins ⟨bindings, lets, condition, result⟩ with
      | ok query =>
          intro count
          exact ⟨1, rfl, iff_of_false Nat.one_ne_zero (Flwr.toJoins_ne planned)⟩
      | error _ =>
          simp only [Except.toOption, Option.getD_none, Query.flwr.injEq]
          refine Counts.congr ((Binding.optimizingAll_counts bindings).bind <|
            (Binding.optimizingAll_counts lets).bind <|
            (Condition.optimizingIfPresent_counts condition).bind <|
            result.optimizing_counts.bind (.pure _)) ?_
          rw [and_true]

theorem Condition.optimizing_counts : (condition : Condition) →
    Counts condition.optimizing (condition.replace .joins) (condition.replace .joins = condition)
  | .valueEq left right => by
      rw [Condition.optimizing, Condition.replace, Condition.valueEq.injEq]
      refine Counts.congr (left.optimizing_counts.bind (right.optimizing_counts.bind (.pure _))) ?_
      rw [and_true]
  | .identityEq left right => by
      rw [Condition.optimizing, Condition.replace, Condition.identityEq.injEq]
      refine Counts.congr (left.optimizing_counts.bind (right.optimizing_counts.bind (.pure _))) ?_
      rw [and_true]
  | .empty query => by
      rw [Condition.optimizing, Condition.replace, Condition.empty.injEq]
      exact Counts.congr (query.optimizing_counts.bind (.pure _)) (iff_of_eq (and_true _))
  | .someSatisfies bindings body => by
      rw [Condition.optimizing, Condition.replace, Condition.someSatisfies.injEq]
      refine Counts.congr ((Binding.optimizingAll_counts bindings).bind
        (body.optimizing_counts.bind (.pure _))) ?_
      rw [and_true]
  | .parenthesized inner => by
      rw [Condition.optimizing, Condition.replace, Condition.parenthesized.injEq]
      exact Counts.congr (inner.optimizing_counts.bind (.pure _)) (iff_of_eq (and_true _))
  | .and left right => by
      rw [Condition.optimizing, Condition.replace, Condition.and.injEq]
      refine Counts.congr (left.optimizing_counts.bind (right.optimizing_counts.bind (.pure _))) ?_
      rw [and_true]
  | .or left right => by
      rw [Condition.optimizing, Condition.replace, Condition.or.injEq]
      refine Counts.congr (left.optimizing_counts.bind (right.optimizing_counts.bind (.pure _))) ?_
      rw [and_true]
  | .not inner => by
      rw [Condition.optimizing, Condition.replace, Condition.not.injEq]
      exact Counts.congr (inner.optimizing_counts.bind (.pure _)) (iff_of_eq (and_true _))

theorem Condition.optimizingIfPresent_counts : (condition : Option Condition) →
    Counts (Condition.optimizingIfPresent condition) (Condition.replaceIfPresent .joins condition)
      (Condition.replaceIfPresent .joins condition = condition)
  | none => by
      rw [Condition.optimizingIfPresent, Condition.replaceIfPresent]
      exact (Counts.pure _).congr (iff_of_true trivial rfl)
  | some condition => by
      rw [Condition.optimizingIfPresent, Condition.replaceIfPresent, Option.some.injEq]
      exact Counts.congr (condition.optimizing_counts.bind (.pure _)) (iff_of_eq (and_true _))

theorem Binding.optimizingAll_counts : (bindings : List Binding) →
    Counts (Binding.optimizingAll bindings) (Binding.replaceAll .joins bindings)
      (Binding.replaceAll .joins bindings = bindings)
  | [] => by
      rw [Binding.optimizingAll, Binding.replaceAll]
      exact (Counts.pure _).congr (iff_of_true trivial rfl)
  | ⟨_, source⟩ :: rest => by
      rw [Binding.optimizingAll, Binding.replaceAll, List.cons.injEq, Binding.mk.injEq]
      refine Counts.congr (source.optimizing_counts.bind
        ((Binding.optimizingAll_counts rest).bind (.pure _))) ?_
      simp only [and_true, true_and]
end

/-- **An optimized query is the query with its replaceable `for` expressions replaced.** -/
theorem Query.optimize_query (query : Query) : query.optimize.query = query.replace .joins := by
  obtain ⟨added, run, _⟩ := query.optimizing_counts 0
  rw [Query.optimize, run]

/-- **Nothing is replaced exactly if the query stays as it is.** -/
theorem Query.optimize_replaced_eq_zero (query : Query) :
    query.optimize.replaced = 0 ↔ query.replace .joins = query := by
  obtain ⟨added, run, none⟩ := query.optimizing_counts 0
  rw [Query.optimize, run, ← none, Nat.zero_add]

end TreeQuery
