import TreeQuery.Proofs.Path.Selection
import TreeQuery.Proofs.Query.Construction

/-!
# Walks, tests and rows

Paths off documents and off variables construct nothing.  What such a walk reaches, and
whether an equality between walks and constants holds, can be read off the arenas
(`Query.walk`, `Condition.test`), and it is the same before and after something has been
constructed, because a walk never leaves the old nodes.

So a clause whose sources are walks visits a list of rows that is fixed before its first
visit (`Binding.rows`), and a `for` expression with such sources and a condition of such
equalities collects its result over the rows that pass the test (`evaluate_flwr_eq`).
-/

set_option autoImplicit false

namespace TreeQuery

open Evaluation

variable {library : Library}

/-! ## Walks -/

/-- The nodes that a path off a document or off a variable reaches. -/
def Query.walk (view : View Home) (scope : Scope) : Query → List Item
  | .reference name => (scope.lookup name).getD []
  | .document path => path.path.selectAlong view path.axis [⟨.document path.document, 0⟩]
  | .parenthesized inner => inner.walk view scope
  | .step base axis path => path.selectAlong view axis (base.walk view scope)
  | _ => []

/-- A path off a document that can be read, or off one of the variables that are bound. -/
def Query.IsWalk (library : Library) (bound : String → Prop) : Query → Prop
  | .reference name => bound name
  | .document path => ∃ arena, library path.document = .ok arena
  | .parenthesized inner => inner.IsWalk library bound
  | .step base _ _ => base.IsWalk library bound
  | _ => False

/-- A variable stands for items. -/
def Scope.Binds (scope : Scope) (name : String) : Prop :=
  ∃ items, scope.lookup name = some items

/-- Every item in scope exists. -/
def Scope.Exist (view : View Home) (scope : Scope) : Prop :=
  ∀ name items, scope.lookup name = some items → ∀ item ∈ items, item.Exists view

theorem Scope.Exist.nil {view : View Home} : Scope.Exist view [] :=
  fun _ _ found => nomatch found

theorem Scope.Exist.cons {view : View Home} {scope : Scope} (existing : scope.Exist view)
    (name : String) {items : List Item} (new : ∀ item ∈ items, item.Exists view) :
    Scope.Exist view ((name, items) :: scope) := by
  intro other values found
  rw [List.lookup_cons] at found
  split at found
  · obtain rfl := Option.some.inj found
    exact new
  · exact existing other values found

/-- A walk is evaluated by reading only. -/
theorem Query.evaluate_walk {scope : Scope} {arena : Arena} :
    (query : Query) → query.IsWalk library scope.Binds →
      query.evaluate library scope arena = .ok (query.walk (library.view arena) scope) arena
  | .reference name, ⟨items, found⟩ => by
      rw [Query.evaluate, found, Query.walk, found]
      rfl
  | .document path, ⟨_, found⟩ => by
      rw [Query.evaluate, documentPath, documentNode, found, Query.walk]
      rfl
  | .parenthesized inner, walks => by
      rw [Query.evaluate, Query.walk]
      exact inner.evaluate_walk walks
  | .step base axis path, walks => by
      rw [Query.evaluate, Query.walk, bind_ok (base.evaluate_walk walks)]
      rfl

/-- A walk reaches existing nodes, and the same ones after something has been
constructed. -/
theorem Query.walk_extend {before after : Arena} {scope : Scope} (documents : library.WellFormed)
    (extend : (library.view before).Extends (library.view after))
    (existing : scope.Exist (library.view before)) :
    (query : Query) →
      query.walk (library.view after) scope = query.walk (library.view before) scope ∧
        ∀ item ∈ query.walk (library.view before) scope, item.Exists (library.view before)
  | .reference name => by
      refine ⟨rfl, fun item member => ?_⟩
      rw [Query.walk] at member
      cases found : scope.lookup name with
      | none =>
          rw [found] at member
          exact nomatch member
      | some items =>
          rw [found] at member
          exact existing name items found item member
  | .document path => by
      rw [Query.walk, Query.walk]
      refine path.path.selectAlong_extend extend path.axis ?_
      intro item member
      obtain rfl := List.mem_singleton.mp member
      exact (extend.formed (.document path.document)).size_pos
  | .parenthesized inner => by
      rw [Query.walk, Query.walk]
      exact inner.walk_extend documents extend existing
  | .step base axis path => by
      obtain ⟨same, reached⟩ := base.walk_extend documents extend existing
      rw [Query.walk, Query.walk, same]
      exact path.selectAlong_extend extend axis reached
  | .constant _ | .pair _ _ | .element _ _ | .join _ _ _ _ | .letIn _ _ | .flwr _ _ _ _ =>
      ⟨rfl, nofun⟩

/-! ## Tests -/

/-- Whether a conjunction of equalities between walks and constants holds. -/
def Condition.test (view : View Home) (scope : Scope) : Condition → Bool
  | .valueEq left right =>
      match left.constant?, right.constant? with
      | some value, some other => value = other
      | some value, none => anyStringValue view (right.walk view scope) value
      | none, some value => anyStringValue view (left.walk view scope) value
      | none, none => anyValueEq view (left.walk view scope) (right.walk view scope)
  | .and left right => left.test view scope && right.test view scope
  | _ => false

/-- A conjunction of equalities between walks and constants. -/
def Condition.IsTest (library : Library) (bound : String → Prop) : Condition → Prop
  | .valueEq left right =>
      (left.constant? = none → left.IsWalk library bound) ∧
        (right.constant? = none → right.IsWalk library bound)
  | .and left right => left.IsTest library bound ∧ right.IsTest library bound
  | _ => False

/-- A test is evaluated by reading only. -/
theorem Condition.holds_test {scope : Scope} {arena : Arena} :
    (condition : Condition) → condition.IsTest library scope.Binds →
      condition.holds library scope arena =
        .ok (condition.test (library.view arena) scope) arena
  | .valueEq left right, ⟨leftWalks, rightWalks⟩ => by
      rw [Condition.holds, Condition.test]
      cases leftConstant : left.constant? with
      | some value =>
          cases rightConstant : right.constant? with
          | some other => rfl
          | none =>
              dsimp only
              rw [bind_ok (right.evaluate_walk (rightWalks rightConstant))]
              rfl
      | none =>
          cases rightConstant : right.constant? with
          | some value =>
              dsimp only
              rw [bind_ok (left.evaluate_walk (leftWalks leftConstant))]
              rfl
          | none =>
              dsimp only
              rw [bind_ok (left.evaluate_walk (leftWalks leftConstant)),
                bind_ok (right.evaluate_walk (rightWalks rightConstant))]
              rfl
  | .and left right, ⟨leftTests, rightTests⟩ => by
      rw [Condition.holds, Condition.test, bind_ok (left.holds_test leftTests)]
      cases left.test (library.view arena) scope with
      | true => exact right.holds_test rightTests
      | false => rfl

theorem Condition.test_extend {before after : Arena} {scope : Scope}
    (documents : library.WellFormed)
    (extend : (library.view before).Extends (library.view after))
    (existing : scope.Exist (library.view before)) :
    (condition : Condition) →
      condition.test (library.view after) scope = condition.test (library.view before) scope
  | .valueEq left right => by
      obtain ⟨leftSame, leftReached⟩ := left.walk_extend documents extend existing
      obtain ⟨rightSame, rightReached⟩ := right.walk_extend documents extend existing
      have stays : ∀ items : List Item, (∀ item ∈ items, item.Exists (library.view before)) →
          Gathered (Node.Alike (library.view before) (library.view after)) items items :=
        fun items reached => .of_forall₂ (List.forall₂_same.mpr fun item member =>
          (Node.Alike.refl (reached item member)).extend (.refl extend.formed) extend)
      rw [Condition.test, Condition.test, leftSame, rightSame]
      split
      · rfl
      · exact anyStringValue_gathered (stays _ rightReached) _
      · exact anyStringValue_gathered (stays _ leftReached) _
      · exact anyValueEq_gathered extend.formed extend.still (stays _ leftReached)
          (stays _ rightReached)
  | .and left right => by
      rw [Condition.test, Condition.test, left.test_extend documents extend existing,
        right.test_extend documents extend existing]
  | .identityEq _ _ | .empty _ | .someSatisfies _ _ | .parenthesized _ | .or _ _ | .not _ => rfl

/-! ## Collecting -/

namespace Evaluation

variable {α β : Type}

theorem collect_append (visit : α → Evaluation (List β)) (first second : List α) :
    collect visit (first ++ second) = do
      let found ← collect visit first
      let others ← collect visit second
      return found ++ others := by
  induction first with
  | nil => simp [collect]
  | cons item rest ih =>
      simp only [List.cons_append, collect, ih, bind_assoc, pure_bind, List.append_assoc]

theorem collect_flatMap {γ : Type} (visit : β → Evaluation (List γ)) (f : α → List β)
    (items : List α) :
    collect visit (items.flatMap f) = collect (fun item => collect visit (f item)) items := by
  induction items with
  | nil => rfl
  | cons item rest ih => rw [List.flatMap_cons, collect_append, ih, collect]

/-- Members that are visited without effect or yield can be left out. -/
theorem collect_filter (visit : α → Evaluation (List β)) (passes : α → Bool) (items : List α) :
    collect (fun item => if passes item then visit item else pure []) items =
      collect visit (items.filter passes) := by
  induction items with
  | nil => rfl
  | cons item rest ih =>
      rw [collect, ih]
      cases passed : passes item with
      | true => simp [passed, collect]
      | false => simp [passed]

/-- Visits that agree in every arena that comes from the first one collect the same. -/
theorem collect_congr {visit other : α → Evaluation (List β)}
    (constructs : ∀ item, Constructs (other item)) (items : List α) :
    ∀ {arena : Arena}, (∀ item ∈ items, ∀ later, arena.Develops later →
        visit item later = other item later) →
      collect visit items arena = collect other items arena := by
  induction items with
  | nil => exact fun _ => rfl
  | cons item rest ih =>
      intro arena agree
      rw [collect, collect, bind_apply, bind_apply, agree item List.mem_cons_self arena .refl]
      cases run : other item arena with
      | error failure later => rfl
      | ok found later =>
          have develops := (constructs item).ok run
          dsimp only
          rw [bind_apply, bind_apply, ih fun item member last further =>
            agree item (List.mem_cons_of_mem _ member) last (develops.trans further)]

end Evaluation

/-! ## Rows -/

/-- What the tuples of a clause with walks for sources add to the scope around, innermost
binding first. -/
def Binding.rows (view : View Home) (outer : Scope) : List Binding → Scope → List Scope
  | [], inner => [inner]
  | ⟨name, source⟩ :: rest, inner =>
      (source.walk view (inner ++ outer)).flatMap fun item =>
        Binding.rows view outer rest ((name, [item]) :: inner)

/-- Every source of a clause is a walk off variables that are bound before it. -/
def Binding.AreWalks (library : Library) (bound : String → Prop) : List Binding → Prop
  | [] => True
  | ⟨name, source⟩ :: rest =>
      source.IsWalk library bound ∧
        Binding.AreWalks library (fun other => other = name ∨ bound other) rest

section Rows

variable {view : View Home} {outer : Scope}

/-- A row binds the names of the clause on top of what it starts with. -/
theorem Binding.names_of_mem_rows : (bindings : List Binding) → ∀ {inner row : Scope},
    row ∈ Binding.rows view outer bindings inner →
      ∃ added : Scope, row = added ++ inner ∧
        added.map (·.1) = (bindings.map (·.name)).reverse
  | [], inner, row, member => by
      rw [Binding.rows, List.mem_singleton] at member
      exact ⟨[], member, rfl⟩
  | ⟨name, source⟩ :: rest, inner, row, member => by
      rw [Binding.rows, List.mem_flatMap] at member
      obtain ⟨item, _, member⟩ := member
      obtain ⟨added, rfl, names⟩ := Binding.names_of_mem_rows rest member
      exact ⟨added ++ [(name, [item])], by simp, by simp [names]⟩

/-- The items of a row exist. -/
theorem Binding.exist_of_mem_rows {before after : Arena} (documents : library.WellFormed)
    (extend : (library.view before).Extends (library.view after)) :
    (bindings : List Binding) → ∀ {inner row : Scope},
      Scope.Exist (library.view before) (inner ++ outer) →
        row ∈ Binding.rows (library.view before) outer bindings inner →
          Scope.Exist (library.view before) (row ++ outer)
  | [], inner, row, existing, member => by
      rw [Binding.rows, List.mem_singleton] at member
      exact member ▸ existing
  | ⟨name, source⟩ :: rest, inner, row, existing, member => by
      rw [Binding.rows, List.mem_flatMap] at member
      obtain ⟨item, reached, member⟩ := member
      have inside := (source.walk_extend documents extend existing).2 item reached
      refine Binding.exist_of_mem_rows documents extend rest ?_ member
      exact existing.cons name fun other same => List.mem_singleton.mp same ▸ inside

end Rows

theorem Query.IsWalk.mono {bound also : String → Prop} (weaker : ∀ name, bound name → also name) :
    (query : Query) → query.IsWalk library bound → query.IsWalk library also
  | .reference name, walks => weaker name walks
  | .document _, walks => walks
  | .parenthesized inner, walks => Query.IsWalk.mono weaker inner walks
  | .step base _ _, walks => Query.IsWalk.mono weaker base walks

theorem Condition.IsTest.mono {bound also : String → Prop}
    (weaker : ∀ name, bound name → also name) :
    (condition : Condition) → condition.IsTest library bound → condition.IsTest library also
  | .valueEq left right, ⟨leftWalks, rightWalks⟩ =>
      ⟨fun path => (leftWalks path).mono weaker left,
        fun path => (rightWalks path).mono weaker right⟩
  | .and left right, ⟨leftTests, rightTests⟩ =>
      ⟨leftTests.mono weaker left, rightTests.mono weaker right⟩

theorem Binding.AreWalks.mono : (bindings : List Binding) → ∀ {bound also : String → Prop},
    (∀ name, bound name → also name) → Binding.AreWalks library bound bindings →
      Binding.AreWalks library also bindings
  | [], _, _, _, _ => trivial
  | ⟨_, source⟩ :: rest, _, _, weaker, ⟨walks, others⟩ =>
      ⟨walks.mono weaker source, Binding.AreWalks.mono rest
        (fun other => Or.imp_right (weaker other)) others⟩

theorem Scope.binds_cons {scope : Scope} {name other : String} {items : List Item} :
    Scope.Binds ((name, items) :: scope) other ↔ other = name ∨ scope.Binds other := by
  rw [Scope.Binds, Scope.Binds, List.lookup_cons]
  by_cases same : other = name
  · simp [same]
  · simp [same, beq_false_of_ne same]

/-- **A clause with walks for sources visits its rows**, whatever the visits construct. -/
theorem Binding.collectTuples_eq_rows {start : Arena} {outer : Scope}
    (documents : library.WellFormed) (formed : start.WellFormed)
    {visit : Scope → Evaluation (List Item)} (constructs : ∀ scope, Constructs (visit scope)) :
    (bindings : List Binding) → ∀ {inner : Scope} {arena : Arena},
      Binding.AreWalks library (Scope.Binds (inner ++ outer)) bindings →
      Scope.Exist (library.view start) (inner ++ outer) → start.Develops arena →
        Binding.collectTuples library bindings (inner ++ outer) visit arena =
          collect (fun row => visit (row ++ outer))
            (Binding.rows (library.view start) outer bindings inner) arena
  | [], inner, arena, _, _, _ => by
      rw [Binding.collectTuples, Binding.rows, collect, bind_apply]
      cases visit (inner ++ outer) arena with
      | error failure later => rfl
      | ok found later => simp [collect, pure_apply]
  | ⟨name, source⟩ :: rest, inner, arena, ⟨walks, others⟩, existing, develops => by
      obtain ⟨still, extend⟩ := develops.extends_wellFormed formed
      obtain ⟨same, reached⟩ :=
        source.walk_extend documents (documents.extends formed still extend) existing
      rw [Binding.collectTuples, bind_ok (source.evaluate_walk walks), same, Binding.rows,
        collect_flatMap]
      refine collect_congr (fun item => constructs_collect (fun row => constructs _) _) _ ?_
      intro item member later further
      have inside : Scope.Exist (library.view start) ((name, [item]) :: inner ++ outer) :=
        existing.cons name fun other same => List.mem_singleton.mp same ▸ reached item member
      refine Binding.collectTuples_eq_rows documents formed constructs rest ?_ inside
        (develops.trans further)
      exact others.mono rest fun other => Scope.binds_cons.mpr

/-- **A `for` expression with walks for sources and a test for a condition collects its
result over the rows that pass the test.** -/
theorem Query.evaluate_flwr_eq {start : Arena} {outer : Scope} (documents : library.WellFormed)
    (formed : start.WellFormed) {bindings : List Binding} {condition : Option Condition}
    {result : Query} {passes : Scope → Bool}
    (walks : Binding.AreWalks library outer.Binds bindings)
    (existing : outer.Exist (library.view start))
    (tested : ∀ row ∈ Binding.rows (library.view start) outer bindings [],
      ∀ later, start.Develops later →
        Condition.holdsIfPresent library condition (row ++ outer) later = .ok (passes row) later)
    {arena : Arena} (develops : start.Develops arena) :
    (Query.flwr bindings [] condition result).evaluate library outer arena =
      collect (fun row => result.evaluate library (row ++ outer))
        ((Binding.rows (library.view start) outer bindings []).filter passes) arena := by
  have visits : ∀ scope, Constructs (Binding.bindInOrder library [] scope fun scope => do
      if ← Condition.holdsIfPresent library condition scope then result.evaluate library scope
      else return []) := by
    intro scope
    rw [Binding.bindInOrder]
    exact constructs_guarded (Condition.holdsIfPresent_constructs library condition scope)
      (result.evaluate_constructs library scope)
  rw [Query.evaluate, ← collect_filter]
  have walksInside : Binding.AreWalks library (Scope.Binds ([] ++ outer)) bindings := walks
  refine (Binding.collectTuples_eq_rows documents formed visits bindings walksInside existing
    develops).trans ?_
  refine collect_congr (fun row => ?_) _ fun row member later further => ?_
  · split
    · exact result.evaluate_constructs library _
    · exact constructs_pure _
  · rw [Binding.bindInOrder, bind_ok (tested row member later (develops.trans further))]

end TreeQuery
