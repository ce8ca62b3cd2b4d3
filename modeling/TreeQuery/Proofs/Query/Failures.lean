import TreeQuery.Proofs.Query.Walks

/-!
# What evaluations can fail with

An evaluation fails for three reasons only: a document cannot be read, a variable is not bound,
or the tags of a join do not come in pairs.  Which of these a query can meet is seen from the
query and from the names that are bound around it (`Query.MayFail`), although it may not meet
them: what a clause binds nothing for is not evaluated.

So a query that cannot meet any of them has a value in every scope that binds these names
(`Query.exists_evaluate`).  Walks and tests are among those queries.
-/

set_option autoImplicit false

namespace TreeQuery

open Evaluation

variable {α β : Type} {library : Library} {failure : Failure} {bound : String → Prop}

/-! ## Failures of a query -/

mutual
/-- Whether a query can fail with a failure where given names are bound. -/
def Query.MayFail (library : Library) (failure : Failure) (query : Query)
    (bound : String → Prop) : Prop :=
  match query with
  | .reference name => ¬bound name ∧ failure = .unboundVariable name
  | .constant _ => False
  | .document path => library path.document = .error failure
  | .parenthesized inner => inner.MayFail library failure bound
  | .pair left right => left.MayFail library failure bound ∨ right.MayFail library failure bound
  | .step base _ _ => base.MayFail library failure bound
  | .element _ body => body.MayFail library failure bound
  | .join left right leftTags rightTags =>
      (leftTags.length ≠ rightTags.length ∧
          failure = .joinArity leftTags.length rightTags.length) ∨
        left.MayFail library failure bound ∨ right.MayFail library failure bound
  | .letIn bindings body =>
      Binding.MayFailApart library failure bindings bound bound fun bound =>
        body.MayFail library failure bound
  | .flwr bindings lets condition result =>
      Binding.MayFailInOrder library failure bindings bound fun bound =>
        Binding.MayFailInOrder library failure lets bound fun bound =>
          Condition.MayFailIfPresent library failure condition bound ∨
            result.MayFail library failure bound

/-- Whether a condition can fail with a failure where given names are bound. -/
def Condition.MayFail (library : Library) (failure : Failure) (condition : Condition)
    (bound : String → Prop) : Prop :=
  match condition with
  | .valueEq left right | .identityEq left right =>
      left.MayFail library failure bound ∨ right.MayFail library failure bound
  | .empty query => query.MayFail library failure bound
  | .someSatisfies bindings body =>
      Binding.MayFailInOrder library failure bindings bound fun bound =>
        body.MayFail library failure bound
  | .parenthesized inner | .not inner => inner.MayFail library failure bound
  | .and left right | .or left right =>
      left.MayFail library failure bound ∨ right.MayFail library failure bound

/-- Whether a condition can fail with a failure, if there is one. -/
def Condition.MayFailIfPresent (library : Library) (failure : Failure)
    (condition : Option Condition) (bound : String → Prop) : Prop :=
  match condition with
  | none => False
  | some condition => condition.MayFail library failure bound

/-- Whether binding variables one after the other, or what follows where they are bound, can
fail with a failure. -/
def Binding.MayFailInOrder (library : Library) (failure : Failure) (bindings : List Binding)
    (bound : String → Prop) (next : (String → Prop) → Prop) : Prop :=
  match bindings with
  | [] => next bound
  | ⟨name, source⟩ :: rest =>
      source.MayFail library failure bound ∨
        Binding.MayFailInOrder library failure rest (fun other => other = name ∨ bound other) next

/-- Whether binding variables apart from each other, or what follows where they are bound, can
fail with a failure. -/
def Binding.MayFailApart (library : Library) (failure : Failure) (bindings : List Binding)
    (outer inner : String → Prop) (next : (String → Prop) → Prop) : Prop :=
  match bindings with
  | [] => next inner
  | ⟨name, source⟩ :: rest =>
      source.MayFail library failure outer ∨
        Binding.MayFailApart library failure rest outer (fun other => other = name ∨ inner other)
          next
end

/-! ## Failures of an evaluation -/

namespace Evaluation

/-- Every failure of an evaluation is allowed. -/
def FailsOnly (evaluation : Evaluation α) (allowed : Failure → Prop) : Prop :=
  ∀ before failure after, evaluation before = .error failure after → allowed failure

variable {allowed also : Failure → Prop}

theorem FailsOnly.mono {evaluation : Evaluation α} (fails : FailsOnly evaluation allowed)
    (weaker : ∀ failure, allowed failure → also failure) : FailsOnly evaluation also :=
  fun _ _ _ run => weaker _ (fails _ _ _ run)

theorem failsOnly_pure (value : α) : FailsOnly (pure value : Evaluation α) allowed :=
  nofun

theorem failsOnly_throw {failure : Failure} (isAllowed : allowed failure) :
    FailsOnly (throw failure : Evaluation α) allowed := by
  intro before other after run
  obtain ⟨rfl, _⟩ := EStateM.Result.error.inj run
  exact isAllowed

theorem failsOnly_observe (look : View Home → α) : FailsOnly (observe library look) allowed :=
  nofun

theorem failsOnly_text (value : String) : FailsOnly (constructText value) allowed :=
  nofun

theorem failsOnly_element (name : String) (items : List Item) :
    FailsOnly (constructElement library name items) allowed :=
  nofun

theorem failsOnly_bind {evaluation : Evaluation α} {next : α → Evaluation β}
    (first : FailsOnly evaluation allowed) (second : ∀ value, FailsOnly (next value) allowed) :
    FailsOnly (evaluation >>= next) allowed := by
  intro before failure after run
  cases ran : evaluation before with
  | ok value middle => exact second value _ _ _ ((bind_ok ran next).symm.trans run)
  | error other middle =>
      obtain ⟨rfl, _⟩ := EStateM.Result.error.inj ((bind_error ran next).symm.trans run)
      exact first _ _ _ ran

theorem failsOnly_guarded {condition : Evaluation Bool} {result : Evaluation (List β)}
    (first : FailsOnly condition allowed) (second : FailsOnly result allowed) :
    FailsOnly (do if ← condition then result else return []) allowed := by
  refine failsOnly_bind first fun yes => ?_
  cases yes with
  | true => exact second
  | false => exact failsOnly_pure _

theorem failsOnly_collect {visit : α → Evaluation (List β)}
    (visits : ∀ item, FailsOnly (visit item) allowed) (items : List α) :
    FailsOnly (collect visit items) allowed := by
  induction items with
  | nil => exact failsOnly_pure _
  | cons item rest ih =>
      exact failsOnly_bind (visits item) fun _ => failsOnly_bind ih fun _ => failsOnly_pure _

theorem failsOnly_any {visit : α → Evaluation Bool}
    (visits : ∀ item, FailsOnly (visit item) allowed) (items : List α) :
    FailsOnly (any visit items) allowed := by
  induction items with
  | nil => exact failsOnly_pure _
  | cons item rest ih =>
      refine failsOnly_bind (visits item) fun yes => ?_
      cases yes with
      | true => exact failsOnly_pure _
      | false => exact ih

/-- A document path fails only if its document cannot be read. -/
theorem failsOnly_documentPath (path : DocumentPath) :
    FailsOnly (documentPath library path) fun failure =>
      library path.document = .error failure := by
  refine failsOnly_bind ?_ fun _ => failsOnly_observe _
  unfold documentNode
  cases library path.document with
  | ok _ => exact failsOnly_pure _
  | error _ => exact failsOnly_throw rfl

/-- A join fails only if its inputs do or its tags do not come in pairs. -/
theorem failsOnly_join (order : KeyOrder) {left right : Evaluation (List Item)}
    (first : FailsOnly left allowed) (second : FailsOnly right allowed)
    {leftTags rightTags : List String} (arity : leftTags.length ≠ rightTags.length →
      allowed (.joinArity leftTags.length rightTags.length)) :
    FailsOnly (join library order left right leftTags rightTags) allowed := by
  unfold join
  split
  · refine failsOnly_bind first fun items => failsOnly_bind second fun others => ?_
    refine failsOnly_bind (failsOnly_observe _) fun pairs =>
      failsOnly_collect (fun positions => ?_) _
    unfold joinTuple
    split
    · exact failsOnly_bind (failsOnly_observe _) fun _ =>
        failsOnly_bind (failsOnly_element _ _) fun _ => failsOnly_pure _
    · exact failsOnly_pure _
  · rename_i differ
    exact failsOnly_throw (arity differ)

end Evaluation

theorem Scope.binds_more {scope : Scope} {bound : String → Prop}
    (binds : ∀ name, bound name → scope.Binds name) {name : String} {items : List Item} :
    ∀ other, other = name ∨ bound other → Scope.Binds ((name, items) :: scope) other :=
  fun other isBound => Scope.binds_cons.mpr (isBound.imp_right (binds other))

mutual
/-- **A query fails only with failures that can be seen from it.** -/
theorem Query.evaluate_failsOnly (library : Library) : (query : Query) → ∀ {bound : String → Prop}
    {scope : Scope}, (∀ name, bound name → scope.Binds name) →
      FailsOnly (query.evaluate library scope) fun failure => query.MayFail library failure bound
  | .reference name, bound, scope, binds => by
      rw [Query.evaluate]
      cases found : scope.lookup name with
      | some items => exact failsOnly_pure _
      | none =>
          refine failsOnly_throw ⟨fun isBound => ?_, rfl⟩
          obtain ⟨items, also⟩ := binds name isBound
          exact nomatch found.symm.trans also
  | .constant value, bound, scope, binds => by
      rw [Query.evaluate]
      exact failsOnly_bind (failsOnly_text value) fun _ => failsOnly_pure _
  | .document path, bound, scope, binds => by
      rw [Query.evaluate]
      exact failsOnly_documentPath path
  | .parenthesized inner, bound, scope, binds => by
      rw [Query.evaluate]
      exact inner.evaluate_failsOnly library binds
  | .pair left right, bound, scope, binds => by
      rw [Query.evaluate]
      exact failsOnly_bind ((left.evaluate_failsOnly library binds).mono fun _ => .inl) fun _ =>
        failsOnly_bind ((right.evaluate_failsOnly library binds).mono fun _ => .inr) fun _ =>
          failsOnly_pure _
  | .step base axis path, bound, scope, binds => by
      rw [Query.evaluate]
      exact failsOnly_bind (base.evaluate_failsOnly library binds) fun _ => failsOnly_observe _
  | .element name body, bound, scope, binds => by
      rw [Query.evaluate]
      exact failsOnly_bind (body.evaluate_failsOnly library binds) fun _ =>
        failsOnly_bind (failsOnly_element _ _) fun _ => failsOnly_pure _
  | .join left right leftTags rightTags, bound, scope, binds => by
      rw [Query.evaluate]
      exact failsOnly_join _
        ((left.evaluate_failsOnly library binds).mono fun _ fails => .inr (.inl fails))
        ((right.evaluate_failsOnly library binds).mono fun _ fails => .inr (.inr fails))
        fun differ => .inl ⟨differ, rfl⟩
  | .letIn bindings body, bound, scope, binds => by
      rw [Query.evaluate]
      exact Binding.bindApart_failsOnly library bindings binds binds fun binds =>
        body.evaluate_failsOnly library binds
  | .flwr bindings lets condition result, bound, scope, binds => by
      rw [Query.evaluate]
      refine Binding.collectTuples_failsOnly library bindings binds fun binds => ?_
      refine Binding.bindInOrder_failsOnly library lets binds fun binds => ?_
      exact failsOnly_guarded
        ((Condition.holdsIfPresent_failsOnly library condition binds).mono fun _ => .inl)
        ((result.evaluate_failsOnly library binds).mono fun _ => .inr)

theorem Condition.holds_failsOnly (library : Library) : (condition : Condition) →
    ∀ {bound : String → Prop} {scope : Scope}, (∀ name, bound name → scope.Binds name) →
      FailsOnly (condition.holds library scope) fun failure =>
        condition.MayFail library failure bound
  | .valueEq left right, bound, scope, binds => by
      have first : FailsOnly (left.evaluate library scope) fun failure =>
          (Condition.valueEq left right).MayFail library failure bound :=
        (left.evaluate_failsOnly library binds).mono fun _ => .inl
      have second : FailsOnly (right.evaluate library scope) fun failure =>
          (Condition.valueEq left right).MayFail library failure bound :=
        (right.evaluate_failsOnly library binds).mono fun _ => .inr
      rw [Condition.holds]
      split
      · exact failsOnly_pure _
      · exact failsOnly_bind second fun _ => failsOnly_observe _
      · exact failsOnly_bind first fun _ => failsOnly_observe _
      · exact failsOnly_bind first fun _ => failsOnly_bind second fun _ => failsOnly_observe _
  | .identityEq left right, bound, scope, binds => by
      rw [Condition.holds]
      exact failsOnly_bind ((left.evaluate_failsOnly library binds).mono fun _ => .inl) fun _ =>
        failsOnly_bind ((right.evaluate_failsOnly library binds).mono fun _ => .inr) fun _ =>
          failsOnly_pure _
  | .empty query, bound, scope, binds => by
      rw [Condition.holds]
      exact failsOnly_bind (query.evaluate_failsOnly library binds) fun _ => failsOnly_pure _
  | .someSatisfies bindings body, bound, scope, binds => by
      rw [Condition.holds]
      exact Binding.anyTuple_failsOnly library bindings binds fun binds =>
        body.holds_failsOnly library binds
  | .parenthesized inner, bound, scope, binds => by
      rw [Condition.holds]
      exact inner.holds_failsOnly library binds
  | .and left right, bound, scope, binds => by
      rw [Condition.holds]
      refine failsOnly_bind ((left.holds_failsOnly library binds).mono fun _ => .inl) fun yes => ?_
      cases yes with
      | true => exact (right.holds_failsOnly library binds).mono fun _ => .inr
      | false => exact failsOnly_pure _
  | .or left right, bound, scope, binds => by
      rw [Condition.holds]
      refine failsOnly_bind ((left.holds_failsOnly library binds).mono fun _ => .inl) fun yes => ?_
      cases yes with
      | true => exact failsOnly_pure _
      | false => exact (right.holds_failsOnly library binds).mono fun _ => .inr
  | .not inner, bound, scope, binds => by
      rw [Condition.holds]
      exact failsOnly_bind (inner.holds_failsOnly library binds) fun _ => failsOnly_pure _

theorem Condition.holdsIfPresent_failsOnly (library : Library) : (condition : Option Condition) →
    ∀ {bound : String → Prop} {scope : Scope}, (∀ name, bound name → scope.Binds name) →
      FailsOnly (Condition.holdsIfPresent library condition scope) fun failure =>
        Condition.MayFailIfPresent library failure condition bound
  | none, bound, scope, binds => by
      rw [Condition.holdsIfPresent]
      exact failsOnly_pure _
  | some condition, bound, scope, binds => by
      rw [Condition.holdsIfPresent]
      exact condition.holds_failsOnly library binds

theorem Binding.collectTuples_failsOnly (library : Library) : (bindings : List Binding) →
    ∀ {bound : String → Prop} {scope : Scope} {visit : Scope → Evaluation (List Item)}
      {next : Failure → (String → Prop) → Prop}, (∀ name, bound name → scope.Binds name) →
      (∀ {bound : String → Prop} {scope : Scope}, (∀ name, bound name → scope.Binds name) →
        FailsOnly (visit scope) (next · bound)) →
      FailsOnly (Binding.collectTuples library bindings scope visit) fun failure =>
        Binding.MayFailInOrder library failure bindings bound (next failure)
  | [], bound, scope, visit, next, binds, visits => by
      rw [Binding.collectTuples]
      exact visits binds
  | ⟨name, source⟩ :: rest, bound, scope, visit, next, binds, visits => by
      rw [Binding.collectTuples]
      refine failsOnly_bind ((source.evaluate_failsOnly library binds).mono fun _ => .inl)
        fun items => failsOnly_collect (fun item => ?_) items
      exact (Binding.collectTuples_failsOnly library rest (Scope.binds_more binds) visits).mono
        fun _ => .inr

theorem Binding.anyTuple_failsOnly (library : Library) : (bindings : List Binding) →
    ∀ {bound : String → Prop} {scope : Scope} {visit : Scope → Evaluation Bool}
      {next : Failure → (String → Prop) → Prop}, (∀ name, bound name → scope.Binds name) →
      (∀ {bound : String → Prop} {scope : Scope}, (∀ name, bound name → scope.Binds name) →
        FailsOnly (visit scope) (next · bound)) →
      FailsOnly (Binding.anyTuple library bindings scope visit) fun failure =>
        Binding.MayFailInOrder library failure bindings bound (next failure)
  | [], bound, scope, visit, next, binds, visits => by
      rw [Binding.anyTuple]
      exact visits binds
  | ⟨name, source⟩ :: rest, bound, scope, visit, next, binds, visits => by
      rw [Binding.anyTuple]
      refine failsOnly_bind ((source.evaluate_failsOnly library binds).mono fun _ => .inl)
        fun items => failsOnly_any (fun item => ?_) items
      exact (Binding.anyTuple_failsOnly library rest (Scope.binds_more binds) visits).mono
        fun _ => .inr

theorem Binding.bindInOrder_failsOnly (library : Library) : (bindings : List Binding) →
    ∀ {bound : String → Prop} {scope : Scope} {visit : Scope → Evaluation (List Item)}
      {next : Failure → (String → Prop) → Prop}, (∀ name, bound name → scope.Binds name) →
      (∀ {bound : String → Prop} {scope : Scope}, (∀ name, bound name → scope.Binds name) →
        FailsOnly (visit scope) (next · bound)) →
      FailsOnly (Binding.bindInOrder library bindings scope visit) fun failure =>
        Binding.MayFailInOrder library failure bindings bound (next failure)
  | [], bound, scope, visit, next, binds, visits => by
      rw [Binding.bindInOrder]
      exact visits binds
  | ⟨name, source⟩ :: rest, bound, scope, visit, next, binds, visits => by
      rw [Binding.bindInOrder]
      refine failsOnly_bind ((source.evaluate_failsOnly library binds).mono fun _ => .inl)
        fun items => ?_
      exact (Binding.bindInOrder_failsOnly library rest (Scope.binds_more binds) visits).mono
        fun _ => .inr

theorem Binding.bindApart_failsOnly (library : Library) : (bindings : List Binding) →
    ∀ {outer inner : String → Prop} {scope innermost : Scope}
      {visit : Scope → Evaluation (List Item)} {next : Failure → (String → Prop) → Prop},
      (∀ name, outer name → scope.Binds name) → (∀ name, inner name → innermost.Binds name) →
      (∀ {bound : String → Prop} {scope : Scope}, (∀ name, bound name → scope.Binds name) →
        FailsOnly (visit scope) (next · bound)) →
      FailsOnly (Binding.bindApart library bindings scope innermost >>= visit) fun failure =>
        Binding.MayFailApart library failure bindings outer inner (next failure)
  | [], outer, inner, scope, innermost, visit, next, binds, innerBinds, visits => by
      rw [Binding.bindApart, pure_bind]
      exact visits innerBinds
  | ⟨name, source⟩ :: rest, outer, inner, scope, innermost, visit, next, binds, innerBinds,
      visits => by
      rw [Binding.bindApart, bind_assoc]
      refine failsOnly_bind ((source.evaluate_failsOnly library binds).mono fun _ => .inl)
        fun items => ?_
      exact (Binding.bindApart_failsOnly library rest binds (Scope.binds_more innerBinds)
        visits).mono fun _ => .inr
end

/-- **A query that cannot fail has a value** in every scope that binds what it refers to. -/
theorem Query.exists_evaluate {query : Query} {scope : Scope}
    (safe : ∀ failure, ¬query.MayFail library failure scope.Binds) (arena : Arena) :
    ∃ items later, query.evaluate library scope arena = .ok items later := by
  cases run : query.evaluate library scope arena with
  | ok items later => exact ⟨items, later, rfl⟩
  | error failure later =>
      exact absurd (query.evaluate_failsOnly library (fun _ => id) _ _ _ run) (safe failure)

/-! ## Walks and tests -/

theorem Query.IsWalk.not_mayFail : (query : Query) → query.IsWalk library bound →
    ¬query.MayFail library failure bound
  | .reference _, walks, fails => fails.1 walks
  | .document _, ⟨_, found⟩, fails => nomatch found.symm.trans fails
  | .parenthesized inner, walks, fails => Query.IsWalk.not_mayFail inner walks fails
  | .step base _ _, walks, fails => Query.IsWalk.not_mayFail base walks fails

theorem Query.not_mayFail_of_constant? (query : Query) {value : String}
    (constant : query.constant? = some value) : ¬query.MayFail library failure bound := by
  induction query using Query.unparenthesized.induct with
  | case1 inner ih => exact ih constant
  | case2 query other =>
      rw [Query.constant?, Query.unparenthesized.eq_2 query other] at constant
      cases query with
      | constant value => exact id
      | _ => exact nomatch constant

theorem Condition.IsTest.not_mayFail : (condition : Condition) →
    condition.IsTest library bound → ¬condition.MayFail library failure bound
  | .valueEq left right, ⟨leftWalks, rightWalks⟩, fails => by
      have side : ∀ query : Query, (query.constant? = none → query.IsWalk library bound) →
          ¬query.MayFail library failure bound := by
        intro query walks
        cases constant : query.constant? with
        | some value => exact query.not_mayFail_of_constant? constant
        | none => exact Query.IsWalk.not_mayFail query (walks constant)
      exact fails.elim (side left leftWalks) (side right rightWalks)
  | .and left right, ⟨leftTests, rightTests⟩, fails =>
      fails.elim (Condition.IsTest.not_mayFail left leftTests)
        (Condition.IsTest.not_mayFail right rightTests)

/-- Clauses of walks do not fail; what follows can where their variables are bound. -/
theorem Binding.AreWalks.of_mayFail : (bindings : List Binding) → ∀ {bound : String → Prop}
    {next : (String → Prop) → Prop}, Binding.AreWalks library bound bindings →
      Binding.MayFailInOrder library failure bindings bound next →
        ∃ also : String → Prop, (∀ name, also name ↔
          name ∈ bindings.map (·.name) ∨ bound name) ∧ next also
  | [], bound, _, _, fails => ⟨bound, by simp, fails⟩
  | ⟨name, source⟩ :: rest, bound, next, ⟨walks, others⟩, fails => by
      rcases fails with fails | fails
      · exact absurd fails (Query.IsWalk.not_mayFail source walks)
      · obtain ⟨also, binds, fails⟩ := Binding.AreWalks.of_mayFail rest others fails
        refine ⟨also, fun other => ?_, fails⟩
        rw [binds, List.map_cons, List.mem_cons, or_assoc, or_left_comm]

end TreeQuery
