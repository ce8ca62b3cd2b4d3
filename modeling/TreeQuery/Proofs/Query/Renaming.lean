import TreeQuery.Proofs.Query.Correspondence
import TreeQuery.Proofs.Query.Outcomes
import TreeQuery.Proofs.Query.TitledForms

/-!
# Renaming preserves meaning

A renamed query is evaluated like the query itself: it constructs the same nodes in the
same slots and ends with the same items, or with the same failure.  Only a reference that
nothing binds fails under another name, the one that stands for all of them.

This is so of any two queries that correspond, in scopes in which linked names are bound to the
same items (`Query.Corresponds.evaluate_eq`): a binding on both sides links the names it binds, and
the same items are bound to them.
-/

set_option autoImplicit false

namespace TreeQuery

open Renaming Evaluation

variable {α β : Type}

/-! ## Changing the failures of an evaluation -/

/-- The failure of a renamed query: a reference that nothing binds has lost its name. -/
def Failure.undefining : Failure → Failure
  | .unboundVariable _ => .unboundVariable undefinedName
  | failure => failure

/-- A library whose failures are about documents, not about variables. -/
def Library.BlamesDocuments (library : Library) : Prop :=
  ∀ (name : String) (failure : Failure), library name = .error failure →
    failure.undefining = failure

/-- The documents of a table fail because they are unknown or malformed. -/
theorem Collection.blamesDocuments_shelf (collection : Collection)
    (table : List (String × Holding)) : (collection.shelf table).library.BlamesDocuments := by
  intro name failure failed
  exact of_missing_on_shelf (fun _ => rfl) (fun _ _ => rfl) failed

namespace Evaluation

/-- An evaluation whose failures are those of the renamed query. -/
def undefining (evaluation : Evaluation α) : Evaluation α :=
  evaluation.adaptExcept Failure.undefining

@[simp] theorem undefining_pure (value : α) :
    undefining (pure value : Evaluation α) = pure value := rfl

@[simp] theorem undefining_throw (failure : Failure) :
    undefining (throw failure : Evaluation α) = throw failure.undefining := rfl

@[simp] theorem undefining_bind (evaluation : Evaluation α) (next : α → Evaluation β) :
    undefining (evaluation >>= next) =
      undefining evaluation >>= fun value => undefining (next value) := by
  funext arena
  simp only [undefining, EStateM.adaptExcept, bind, EStateM.bind]
  cases evaluation arena <;> rfl

@[simp] theorem undefining_observe (library : Library) (look : View Home → α) :
    undefining (observe library look) = observe library look := rfl

/-- The outcome with the failures of the renamed query. -/
theorem outcome_undefining (evaluation : Evaluation (List Item)) :
    (undefining evaluation).outcome = evaluation.outcome.mapError Failure.undefining := by
  rw [Evaluation.outcome, Evaluation.outcome, undefining, EStateM.run, EStateM.run,
    EStateM.adaptExcept]
  cases evaluation .empty <;> rfl

theorem undefining_documentPath {library : Library} (blames : library.BlamesDocuments)
    (path : DocumentPath) :
    undefining (documentPath library path) = documentPath library path := by
  have root : undefining (documentNode library path.document) =
      documentNode library path.document := by
    unfold documentNode
    split
    · rfl
    · rename_i failure failed
      rw [undefining_throw, blames _ _ failed]
  simp only [documentPath, undefining_bind, undefining_observe, root]

@[simp] theorem undefining_constructText (value : String) :
    undefining (constructText value) = constructText value := rfl

@[simp] theorem undefining_constructElement (library : Library) (name : String)
    (items : List Item) :
    undefining (constructElement library name items) = constructElement library name items := rfl

theorem undefining_collect (visit : α → Evaluation (List β)) (items : List α) :
    undefining (collect visit items) = collect (fun item => undefining (visit item)) items := by
  induction items with
  | nil => rfl
  | cons item rest ih => simp only [collect, undefining_bind, undefining_pure, ih]

theorem undefining_any (visit : α → Evaluation Bool) (items : List α) :
    undefining (any visit items) = any (fun item => undefining (visit item)) items := by
  induction items with
  | nil => rfl
  | cons item rest ih =>
      simp only [any, undefining_bind]
      congr 1
      funext yes
      cases yes
      · simpa using ih
      · rfl

@[simp] theorem undefining_joinTuples (library : Library) (order : KeyOrder)
    (left right : List Item) (leftTags rightTags : List String) :
    undefining (joinTuples library order left right leftTags rightTags) =
      joinTuples library order left right leftTags rightTags := by
  simp only [joinTuples, undefining_bind, undefining_observe, undefining_collect]
  congr 1
  funext pairs
  congr 1
  funext positions
  unfold joinTuple
  split <;> simp only [undefining_bind, undefining_observe, undefining_constructElement,
    undefining_pure]

theorem undefining_join (library : Library) (order : KeyOrder)
    (left right : Evaluation (List Item)) (leftTags rightTags : List String) :
    undefining (join library order left right leftTags rightTags) =
      join library order (undefining left) (undefining right) leftTags rightTags := by
  unfold join
  split
  · simp only [undefining_bind, undefining_joinTuples]
  · rfl

end Evaluation

/-! ## Linked names and scopes -/

/-- Linked names are bound to the same items in two scopes.  If one of them is not bound, the other
is the name that stands for all of these. -/
def Links.BindAlike (links : Links) (scope renamed : Scope) : Prop :=
  ∀ name other, links.Connect Undefines name other →
    renamed.lookup other = scope.lookup name ∧
      (scope.lookup name = none → other = undefinedName)

namespace Links.BindAlike

variable {links : Links} {scope renamed : Scope}

theorem nil : Links.BindAlike [] [] [] := fun _ _ undefines => ⟨rfl, fun _ => undefines⟩

/-- A binding on both sides binds the names that it links to the same items. -/
theorem cons (alike : links.BindAlike scope renamed) (left right : String) (items : List Item) :
    Links.BindAlike ((left, right) :: links) ((left, items) :: scope)
      ((right, items) :: renamed) := by
  intro name other connect
  rcases connect with ⟨rfl, rfl⟩ | ⟨apart, apartToo, connect⟩
  · rw [List.lookup_cons_self, List.lookup_cons_self]
    exact ⟨rfl, nofun⟩
  · rw [List.lookup_cons, List.lookup_cons, beq_false_of_ne apart, beq_false_of_ne apartToo]
    exact alike name other connect

end Links.BindAlike

/-! ## Corresponding queries -/

section Meaning

variable {free : String → String → Prop} {library : Library}

/-- Queries that correspond are the same text, if they are one. -/
theorem Query.Corresponds.constant?_eq : {first : Query} → ∀ {second : Query} {links : Links},
    first.Corresponds free links second → second.constant? = first.constant?
  | .parenthesized _, _, _, .parenthesized inner => inner.constant?_eq
  | .reference _, _, _, .reference _ => rfl
  | .constant _, _, _, .constant _ => rfl
  | .document _, _, _, .document _ => rfl
  | .pair _ _, _, _, .pair _ _ => rfl
  | .step _ _ _, _, _, .step _ => rfl
  | .element _ _, _, _, .element _ => rfl
  | .join _ _ _ _, _, _, .join _ _ => rfl
  | .letIn _ _, _, _, .letIn _ _ => rfl
  | .flwr _ _ _ _, _, _, .flwr _ _ _ _ => rfl

mutual
/-- **Queries that correspond mean the same** in scopes in which linked names are bound alike, up to
the names of references that nothing binds. -/
theorem Query.Corresponds.evaluate_eq (blames : library.BlamesDocuments) : {first : Query} →
    ∀ {second : Query} {links : Links} {scope renamed : Scope},
      first.Corresponds Undefines links second → links.BindAlike scope renamed →
        second.evaluate library renamed = undefining (first.evaluate library scope)
  | .reference name, _, _, scope, _, .reference connect, alike => by
      obtain ⟨same, undefined⟩ := alike _ _ connect
      rw [Query.evaluate, Query.evaluate, same]
      cases found : scope.lookup name with
      | some items => rfl
      | none =>
          rw [undefined found]
          rfl
  | .constant _, _, _, _, _, .constant _, _ => by
      simp only [Query.evaluate, undefining_bind, undefining_constructText, undefining_pure]
  | .document _, _, _, _, _, .document _, _ => by
      simp only [Query.evaluate, undefining_documentPath blames]
  | .parenthesized _, _, _, _, _, .parenthesized inner, alike => by
      rw [Query.evaluate, Query.evaluate, inner.evaluate_eq blames alike]
  | .pair _ _, _, _, _, _, .pair left right, alike => by
      simp only [Query.evaluate, left.evaluate_eq blames alike, right.evaluate_eq blames alike,
        undefining_bind, undefining_pure]
  | .step _ _ _, _, _, _, _, .step base, alike => by
      simp only [Query.evaluate, base.evaluate_eq blames alike, undefining_bind, undefining_observe]
  | .element _ _, _, _, _, _, .element body, alike => by
      simp only [Query.evaluate, body.evaluate_eq blames alike, undefining_bind, undefining_pure,
        undefining_constructElement]
  | .join _ _ _ _, _, _, _, _, .join left right, alike => by
      simp only [Query.evaluate, left.evaluate_eq blames alike, right.evaluate_eq blames alike,
        undefining_join]
  | .letIn _ _, _, _, _, _, .letIn bindings body, alike => by
      rw [Query.evaluate, Query.evaluate]
      exact bindings.bindApart_bind blames alike alike fun _ _ alike => body.evaluate_eq blames alike
  | .flwr _ _ _ _, _, _, _, _, .flwr bindings lets condition result, alike => by
      rw [Query.evaluate, Query.evaluate]
      refine bindings.collectTuples_eq blames alike fun _ _ alike => ?_
      refine lets.bindInOrder_eq blames alike fun _ _ alike => ?_
      rw [condition.holdsIfPresent_eq blames alike, undefining_bind]
      congr 1
      funext yes
      cases yes with
      | false => rfl
      | true => exact result.evaluate_eq blames alike

/-- Conditions that correspond hold alike. -/
theorem Condition.Corresponds.holds_eq (blames : library.BlamesDocuments) : {first : Condition} →
    ∀ {second : Condition} {links : Links} {scope renamed : Scope},
      first.Corresponds Undefines links second → links.BindAlike scope renamed →
        second.holds library renamed = undefining (first.holds library scope)
  | .valueEq first other, _, _, _, _, .valueEq left right, alike => by
      simp only [Condition.holds, left.constant?_eq, right.constant?_eq,
        left.evaluate_eq blames alike, right.evaluate_eq blames alike]
      cases first.constant? <;> cases other.constant? <;> simp
  | .identityEq _ _, _, _, _, _, .identityEq left right, alike => by
      simp only [Condition.holds, left.evaluate_eq blames alike, right.evaluate_eq blames alike,
        undefining_bind, undefining_pure]
  | .empty _, _, _, _, _, .empty query, alike => by
      simp only [Condition.holds, query.evaluate_eq blames alike, undefining_bind, undefining_pure]
  | .someSatisfies _ _, _, _, _, _, .someSatisfies bindings body, alike => by
      rw [Condition.holds, Condition.holds]
      exact bindings.anyTuple_eq blames alike fun _ _ alike => body.holds_eq blames alike
  | .parenthesized _, _, _, _, _, .parenthesized inner, alike => by
      rw [Condition.holds, Condition.holds, inner.holds_eq blames alike]
  | .and _ _, _, _, _, _, .and left right, alike => by
      simp only [Condition.holds, left.holds_eq blames alike, right.holds_eq blames alike,
        undefining_bind]
      congr 1
      funext yes
      cases yes <;> rfl
  | .or _ _, _, _, _, _, .or left right, alike => by
      simp only [Condition.holds, left.holds_eq blames alike, right.holds_eq blames alike,
        undefining_bind]
      congr 1
      funext yes
      cases yes <;> rfl
  | .not _, _, _, _, _, .not inner, alike => by
      simp only [Condition.holds, inner.holds_eq blames alike, undefining_bind, undefining_pure]

theorem Condition.CorrespondIfPresent.holdsIfPresent_eq (blames : library.BlamesDocuments) :
    {first : Option Condition} → ∀ {second : Option Condition} {links : Links}
      {scope renamed : Scope}, Condition.CorrespondIfPresent Undefines links first second →
        links.BindAlike scope renamed →
          Condition.holdsIfPresent library second renamed =
            undefining (Condition.holdsIfPresent library first scope)
  | none, _, _, _, _, .none, _ => by
      simp only [Condition.holdsIfPresent, undefining_pure]
  | some _, _, _, _, _, .some condition, alike => by
      rw [Condition.holdsIfPresent, Condition.holdsIfPresent, condition.holds_eq blames alike]

/-- Clauses that correspond visit the same tuples, under the names of each. -/
theorem Binding.CorrespondInOrder.collectTuples_eq (blames : library.BlamesDocuments) :
    {first : List Binding} → ∀ {second : List Binding} {links inner : Links}
      {scope renamed : Scope} {visit visitToo : Scope → Evaluation (List Item)},
      Binding.CorrespondInOrder Undefines links first second inner →
        links.BindAlike scope renamed →
          (∀ scope renamed, inner.BindAlike scope renamed →
            visitToo renamed = undefining (visit scope)) →
              Binding.collectTuples library second renamed visitToo =
                undefining (Binding.collectTuples library first scope visit)
  | [], _, _, _, _, _, _, _, .nil, alike, agree => by
      rw [Binding.collectTuples, Binding.collectTuples, agree _ _ alike]
  | ⟨_, _⟩ :: _, _, _, _, _, _, _, _, .cons source rest, alike, agree => by
      simp only [Binding.collectTuples, source.evaluate_eq blames alike, undefining_bind,
        undefining_collect]
      refine bind_congr fun items => congrArg (collect · items) (funext fun item => ?_)
      exact rest.collectTuples_eq blames (alike.cons _ _ [item]) agree

theorem Binding.CorrespondInOrder.anyTuple_eq (blames : library.BlamesDocuments) :
    {first : List Binding} → ∀ {second : List Binding} {links inner : Links}
      {scope renamed : Scope} {visit visitToo : Scope → Evaluation Bool},
      Binding.CorrespondInOrder Undefines links first second inner →
        links.BindAlike scope renamed →
          (∀ scope renamed, inner.BindAlike scope renamed →
            visitToo renamed = undefining (visit scope)) →
              Binding.anyTuple library second renamed visitToo =
                undefining (Binding.anyTuple library first scope visit)
  | [], _, _, _, _, _, _, _, .nil, alike, agree => by
      rw [Binding.anyTuple, Binding.anyTuple, agree _ _ alike]
  | ⟨_, _⟩ :: _, _, _, _, _, _, _, _, .cons source rest, alike, agree => by
      simp only [Binding.anyTuple, source.evaluate_eq blames alike, undefining_bind,
        undefining_any]
      refine bind_congr fun items => congrArg (any · items) (funext fun item => ?_)
      exact rest.anyTuple_eq blames (alike.cons _ _ [item]) agree

theorem Binding.CorrespondInOrder.bindInOrder_eq (blames : library.BlamesDocuments) :
    {first : List Binding} → ∀ {second : List Binding} {links inner : Links}
      {scope renamed : Scope} {visit visitToo : Scope → Evaluation (List Item)},
      Binding.CorrespondInOrder Undefines links first second inner →
        links.BindAlike scope renamed →
          (∀ scope renamed, inner.BindAlike scope renamed →
            visitToo renamed = undefining (visit scope)) →
              Binding.bindInOrder library second renamed visitToo =
                undefining (Binding.bindInOrder library first scope visit)
  | [], _, _, _, _, _, _, _, .nil, alike, agree => by
      rw [Binding.bindInOrder, Binding.bindInOrder, agree _ _ alike]
  | ⟨_, _⟩ :: _, _, _, _, _, _, _, _, .cons source rest, alike, agree => by
      simp only [Binding.bindInOrder, source.evaluate_eq blames alike, undefining_bind]
      refine bind_congr fun items => ?_
      exact rest.bindInOrder_eq blames (alike.cons _ _ items) agree

/-- What follows a stand-alone `let` means the same if the bindings correspond. -/
theorem Binding.CorrespondApart.bindApart_bind (blames : library.BlamesDocuments) :
    {first : List Binding} → ∀ {second : List Binding} {outer links inner : Links}
      {scope renamed innerScope innerRenamed : Scope}
      {next nextToo : Scope → Evaluation (List Item)},
      Binding.CorrespondApart Undefines outer links first second inner →
        outer.BindAlike scope renamed → links.BindAlike innerScope innerRenamed →
          (∀ scope renamed, inner.BindAlike scope renamed →
            nextToo renamed = undefining (next scope)) →
              (Binding.bindApart library second renamed innerRenamed >>= nextToo) =
                undefining (Binding.bindApart library first scope innerScope >>= next)
  | [], _, _, _, _, _, _, _, _, _, _, .nil, _, alike, agree => by
      rw [Binding.bindApart, Binding.bindApart, pure_bind, pure_bind, agree _ _ alike]
  | ⟨_, _⟩ :: _, _, _, _, _, _, _, _, _, _, _, .cons source rest, outer, alike, agree => by
      simp only [Binding.bindApart, source.evaluate_eq blames outer, bind_assoc]
      rw [undefining_bind]
      refine bind_congr fun items => ?_
      exact rest.bindApart_bind blames outer (alike.cons _ _ items) agree
end

end Meaning

/-! ## Whole queries -/

/-- A query that has been renamed corresponds to the query, also with titles for names of
documents. -/
theorem Query.corresponds_titled_of_renaming (title : String → String) {query renamed : Query}
    {counter later : Nat} (run : query.renaming false counter = .ok renamed later) :
    (query.titled title).Corresponds Undefines [] (renamed.titled title) :=
  Query.corresponds_of_renaming (fun _ => undefines_undefinedName)
    (Query.renaming_titled_ok title run)

/-- **Renaming preserves meaning.**  From any counter the permissive renamer succeeds, and
over whatever texts and documents stand under names, one document under several names included,
the renamed query has on a new evaluator the outcome of the query itself: the same items, the same
constructed nodes, or the same failure up to the name of a reference that nothing binds. -/
theorem outcome_evaluate_renaming (query : Query) (counter : Nat) :
    ∃ renamed later, (query.renaming false).run counter = .ok renamed later ∧
      ∀ (creations : List Creation) (table : List (String × Holding)),
        let resolver := (Collection.empty.createAll creations).resolver table
        (Session.evaluate resolver renamed []).outcome =
          (Session.evaluate resolver query []).outcome.mapError Failure.undefining := by
  obtain ⟨renamed, later, run, _⟩ := query.exists_renaming counter
  refine ⟨renamed, later, run, fun creations table => ?_⟩
  intro resolver
  have corresponds := Query.corresponds_titled_of_renaming resolver.title run
  have blames : resolver.library.BlamesDocuments := Collection.blamesDocuments_shelf _ table
  rw [Session.outcome_evaluate, Session.outcome_evaluate, corresponds.evaluate_eq blames .nil,
    outcome_undefining]

end TreeQuery
