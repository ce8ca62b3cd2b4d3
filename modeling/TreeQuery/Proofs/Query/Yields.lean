import TreeQuery.Proofs.Query.Join
import TreeQuery.Proofs.Query.Walks

/-!
# Queries that yield given fragments

Once a query constructs tuples, which nodes it yields depends on what has been constructed
before, but what the nodes say does not.  `Query.Yields` says that a query, wherever it is
evaluated from a given arena on, yields nodes that read as given fragments, one by one.

Walks yield the fragments of what they reach, elements put fragments together, and joins
combine the fragments of their tuples in a nested loop (`Yields.join`): tuples match or do
not match by what they say.
-/

set_option autoImplicit false

namespace TreeQuery

open Evaluation

variable {library : Library} {start : Arena} {scope : Scope}

/-! ## Fragments of tuples -/

namespace Fragment

/-- Whether a fragment is an element of a given name. -/
def isNamed (name : String) : Fragment → Bool
  | .element other _ _ => other = name
  | _ => false

/-- The key of a tuple for a tag. -/
def tupleKey (tuple : Fragment) (tag : String) : List String :=
  (tuple.children.filter (·.isNamed tag)).flatMap fun field =>
    (field.attributes.map (fun (name, value) => Fragment.attribute name value) ++
      field.children).map fun part => compactAll [part]

/-- Whether two tuples match on every pair of tags. -/
def matchesOn (leftTags rightTags : List String) (tuple other : Fragment) : Bool :=
  keyListsMeet (leftTags.map tuple.tupleKey) (rightTags.map other.tupleKey)

/-- The tuple with the fields of two tuples. -/
def joined (tuple other : Fragment) : Fragment :=
  .element tupleTag [] (tuple.children ++ other.children)

end Fragment

namespace Node

variable {Home : Type} {view : View Home}

theorem isNamed_fragment (formed : view.WellFormed) {node other : Node Home}
    (listed : other ∈ node.children view) (name : String) :
    (other.fragment view).isNamed name = other.isElementNamed view name := by
  have kind := kind_of_mem_children formed listed
  rw [Node.kind, payload, record, arena, fragment, arena, (formed _).fragment_eq,
    Arena.topFragment] at kind
  rw [fragment, arena, (formed _).fragment_eq, Arena.topFragment, isElementNamed, payload, record,
    arena]
  revert kind
  cases ((view other.home).record other.slot).payload <;>
    simp [Payload.kind, Fragment.kind, Fragment.isNamed]

/-- The key of a tuple is read off its fragment. -/
theorem tupleKey_eq (formed : view.WellFormed) (tuple : Node Home) (tag : String) :
    tuple.tupleKey view tag = (tuple.fragment view).tupleKey tag := by
  have named : (tuple.children view).filter (·.isElementNamed view tag) =
      (tuple.children view).filter ((·.isNamed tag) ∘ (·.fragment view)) :=
    List.filter_congr fun field listed => (isNamed_fragment formed listed tag).symm
  rw [tupleKey, Fragment.tupleKey, ← map_fragment_children formed, List.filter_map,
    List.flatMap_map, named, List.map_flatMap]
  refine List.flatMap_congr fun field _ => ?_
  rw [← map_fragment_children formed, ← map_fragment_attributes formed, ← List.map_append,
    List.map_map]
  refine List.map_congr_left fun part listed => ?_
  have below : part.kind view ≠ .document := by
    rcases List.mem_append.mp listed with given | child
    · rw [kind_of_mem_attributes formed given]
      decide
    · exact (reads_of_mem_children formed child).kind
  rw [valueKey, content_of_kind below]
  rfl

theorem matchesOn_eq (formed : view.WellFormed) (tuple other : Node Home)
    (leftTags rightTags : List String) : tuple.matchesOn view leftTags rightTags other =
      (tuple.fragment view).matchesOn leftTags rightTags (other.fragment view) := by
  rw [matchesOn, Fragment.matchesOn]
  congr 1 <;> exact List.map_congr_left fun tag _ => tupleKey_eq formed _ tag

end Node

/-! ## Nested loops over lists -/

/-- Whether a condition holds of the members at two positions. -/
def holdsAt {α β : Type} (p : α → β → Bool) (first : List α) (second : List β) (i j : Nat) :
    Bool :=
  first[i]?.any fun a => second[j]?.any (p a)

/-- A nested loop over positions is one over the members there. -/
theorem forall₂_nestedLoop {α β γ : Type} (p : α → β → Bool) (combine : α → β → γ)
    (first : List α) (second : List β) :
    List.Forall₂ (fun (positions : Nat × Nat) result => ∃ a b, first[positions.1]? = some a ∧
        second[positions.2]? = some b ∧ combine a b = result)
      (nestedLoop (holdsAt p first second) first.length second.length)
      (first.flatMap fun a => (second.filter (p a)).map (combine a)) := by
  have positions : ∀ {δ : Type} (members : List δ),
      List.Forall₂ (fun i member => members[i]? = some member) (List.range members.length)
        members :=
    fun members => List.forall₂_iff_get.mpr ⟨by simp, fun i inside inside' => by simp [inside']⟩
  rw [nestedLoop]
  refine List.rel_flatMap (positions first) fun i a here => ?_
  rw [List.forall₂_map_left_iff, List.forall₂_map_right_iff]
  refine (forall₂_filter (positions second) fun {j b} there => ?_).imp fun j b there => ?_
  · rw [holdsAt, here, Option.any_some, there, Option.any_some]
  · exact ⟨a, b, here, there, rfl⟩

/-! ## Yielding -/

/-- Wherever it is evaluated from a given arena on, a query yields nodes that read as given
fragments. -/
def Query.Yields (library : Library) (start : Arena) (scope : Scope) (query : Query)
    (fragments : List Fragment) : Prop :=
  ∀ arena, start.Develops arena →
    ∃ items later, query.evaluate library scope arena = .ok items later ∧
      List.Forall₂ (fun fragment item => item.Reads (library.view later) fragment) fragments items

section Yields

variable (documents : library.WellFormed) (formed : start.WellFormed)
include documents formed

/-- A walk yields what it reaches. -/
theorem Query.Yields.walk {query : Query} (existing : scope.Exist (library.view start))
    (walks : query.IsWalk library scope.Binds)
    (below : ∀ item ∈ query.walk (library.view start) scope,
      item.kind (library.view start) ≠ .document) :
    query.Yields library start scope
      ((query.walk (library.view start) scope).map (·.fragment (library.view start))) := by
  intro arena develops
  obtain ⟨still, extend⟩ := develops.extends_wellFormed formed
  have viewExtend := documents.extends formed still extend
  obtain ⟨same, reached⟩ := query.walk_extend documents viewExtend existing
  refine ⟨_, arena, query.evaluate_walk walks, ?_⟩
  rw [same, List.forall₂_map_left_iff, List.forall₂_same]
  intro item member
  exact Node.Reads.extend ⟨reached item member, below item member, rfl⟩ viewExtend

/-- A pair yields what its parts yield. -/
theorem Query.Yields.pair {left right : Query} {first second : List Fragment}
    (yieldsLeft : left.Yields library start scope first)
    (yieldsRight : right.Yields library start scope second) :
    (Query.pair left right).Yields library start scope (first ++ second) := by
  intro arena develops
  obtain ⟨items, middle, run, reads⟩ := yieldsLeft arena develops
  have further := (left.evaluate_constructs library scope).ok run
  obtain ⟨others, later, rerun, otherReads⟩ := yieldsRight middle (develops.trans further)
  have last := (right.evaluate_constructs library scope).ok rerun
  obtain ⟨formedMiddle, _⟩ := (develops.trans further).extends_wellFormed formed
  obtain ⟨still, extend⟩ := last.extends_wellFormed formedMiddle
  refine ⟨items ++ others, later, ?_, List.rel_append ?_ otherReads⟩
  · rw [Query.evaluate, bind_ok run, bind_ok rerun, pure_apply]
  · exact reads.imp fun _ _ reads => reads.extend (documents.extends formedMiddle still extend)

/-- An element around fragments other than attributes has them as its children. -/
theorem Query.Yields.element {body : Query} {fragments : List Fragment}
    (yields : body.Yields library start scope fragments)
    (plain : ∀ fragment ∈ fragments, fragment.isAttribute = false) (name : String) :
    (Query.element name body).Yields library start scope [.element name [] fragments] := by
  intro arena develops
  obtain ⟨items, middle, run, reads⟩ := yields arena develops
  have further := (body.evaluate_constructs library scope).ok run
  obtain ⟨formedMiddle, _⟩ := (develops.trans further).extends_wellFormed formed
  obtain ⟨item, later, rerun, _, readsNew⟩ :=
    constructElement_new documents formedMiddle name items
  rw [Node.flatMap_content_of_reads reads, Fragment.attributesIn_eq_nil plain,
    Fragment.childrenIn_eq_self plain,
    List.foldl_nil] at readsNew
  refine ⟨[item], later, ?_, .cons readsNew .nil⟩
  rw [Query.evaluate, bind_ok run, bind_ok rerun, pure_apply]

/-- A comma sequence yields what its members yield. -/
theorem Query.Yields.sequence {queries : List Query} {fragments : List Fragment} {body : Query}
    (yields : List.Forall₂ (fun query fragment => query.Yields library start scope [fragment])
      queries fragments) (nested : Query.sequence queries = some body) :
    body.Yields library start scope fragments := by
  have fold : ∀ {queries : List Query} {fragments before : List Fragment} {first : Query},
      first.Yields library start scope before →
      List.Forall₂ (fun query fragment => query.Yields library start scope [fragment])
        queries fragments →
      (queries.foldl .pair first).Yields library start scope (before ++ fragments) := by
    intro queries
    induction queries with
    | nil =>
        intro fragments before first yields none
        cases none
        rw [List.append_nil]
        exact yields
    | cons next rest ih =>
        intro fragments before first yields others
        cases others with
        | cons head tail =>
            have both := ih (yields.pair documents formed head) tail
            rwa [List.append_assoc, List.singleton_append] at both
  cases yields with
  | nil => exact nomatch nested
  | cons head tail =>
      obtain rfl := Option.some.inj nested
      exact fold head tail

/-- A `for` expression with walks for sources yields what its result yields for every row
that passes the test. -/
theorem Query.Yields.flwr {bindings : List Binding} {condition : Option Condition}
    {result : Query} {passes : Scope → Bool} {fragment : Scope → Fragment}
    (existing : scope.Exist (library.view start))
    (walks : Binding.AreWalks library scope.Binds bindings)
    (tested : ∀ row ∈ Binding.rows (library.view start) scope bindings [],
      ∀ later, start.Develops later →
        Condition.holdsIfPresent library condition (row ++ scope) later = .ok (passes row) later)
    (yields : ∀ row ∈ (Binding.rows (library.view start) scope bindings []).filter passes,
      result.Yields library start (row ++ scope) [fragment row]) :
    (Query.flwr bindings [] condition result).Yields library start scope
      (((Binding.rows (library.view start) scope bindings []).filter passes).map fragment) := by
  intro arena develops
  rw [Query.evaluate_flwr_eq documents formed walks existing tested develops]
  clear tested
  generalize (Binding.rows (library.view start) scope bindings []).filter passes = rows at yields
  induction rows generalizing arena with
  | nil => exact ⟨[], arena, rfl, .nil⟩
  | cons row rest ih =>
      obtain ⟨items, middle, run, reads⟩ := yields row List.mem_cons_self arena develops
      have further := (result.evaluate_constructs library _).ok run
      obtain ⟨others, later, rerun, otherReads⟩ :=
        ih middle (develops.trans further) fun row member =>
          yields row (List.mem_cons_of_mem _ member)
      have last := (constructs_collect (fun row : Scope =>
        result.evaluate_constructs library (row ++ scope)) rest).ok rerun
      obtain ⟨formedMiddle, _⟩ := (develops.trans further).extends_wellFormed formed
      obtain ⟨still, extend⟩ := last.extends_wellFormed formedMiddle
      refine ⟨items ++ others, later, ?_, ?_⟩
      · rw [collect, bind_ok run, bind_ok rerun, pure_apply]
      · rw [List.map_cons, ← List.singleton_append]
        refine List.rel_append ?_ otherReads
        exact reads.imp fun _ _ reads => reads.extend (documents.extends formedMiddle still extend)

/-- **A join combines the tuples of both sides in a nested loop.** -/
theorem Query.Yields.join {left right : Query} {first second : List Fragment}
    (yieldsLeft : left.Yields library start scope first)
    (yieldsRight : right.Yields library start scope second) {leftTags rightTags : List String}
    (arity : leftTags.length = rightTags.length) :
    (Query.join left right leftTags rightTags).Yields library start scope
      (first.flatMap fun tuple =>
        (second.filter (tuple.matchesOn leftTags rightTags)).map tuple.joined) := by
  intro arena develops
  obtain ⟨items, middle, run, reads⟩ := yieldsLeft arena develops
  have further := (left.evaluate_constructs library scope).ok run
  obtain ⟨others, later, rerun, otherReads⟩ := yieldsRight middle (develops.trans further)
  have last := (right.evaluate_constructs library scope).ok rerun
  obtain ⟨formedMiddle, _⟩ := (develops.trans further).extends_wellFormed formed
  obtain ⟨still, extend⟩ := last.extends_wellFormed formedMiddle
  have viewFormed := documents.view still
  replace reads := reads.imp fun _ _ reads =>
    reads.extend (documents.extends formedMiddle still extend)
  have fragmentsOf : ∀ {fragments : List Fragment} {nodes : List Item},
      List.Forall₂ (fun fragment item => item.Reads (library.view later) fragment) fragments nodes →
        nodes.map (·.fragment (library.view later)) = fragments ∧
          ∀ node ∈ nodes, node.Exists (library.view later) := by
    intro fragments nodes reads
    induction reads with
    | nil => exact ⟨rfl, nofun⟩
    | cons head _ ih =>
        refine ⟨by rw [List.map_cons, head.fragment, ih.1], List.forall_mem_cons.mpr ?_⟩
        exact ⟨head.exists_view, ih.2⟩
  obtain ⟨rfl, existing⟩ := fragmentsOf reads
  obtain ⟨rfl, otherExisting⟩ := fragmentsOf otherReads
  obtain ⟨joined, after, joining, formedAfter, extendAfter, areJoined⟩ :=
    joinTuples_isJoined documents still
      (List.forall_mem_append.mpr ⟨existing, otherExisting⟩) .asMet arity
  refine ⟨joined, after, ?_, ?_⟩
  · rw [Query.evaluate, Evaluation.join, if_pos arity, bind_ok run, bind_ok rerun, joining]
  · have loop := forall₂_nestedLoop (Fragment.matchesOn leftTags rightTags) Fragment.joined
      (items.map (·.fragment (library.view later))) (others.map (·.fragment (library.view later)))
    have same : matchAt (library.view later) items others leftTags rightTags =
        holdsAt (Fragment.matchesOn leftTags rightTags)
          (items.map (·.fragment (library.view later)))
          (others.map (·.fragment (library.view later))) := by
      funext i j
      rw [matchAt, holdsAt, List.getElem?_map, List.getElem?_map]
      cases items[i]? with
      | none => rfl
      | some tuple =>
          cases others[j]? with
          | none => rfl
          | some other => exact Node.matchesOn_eq viewFormed tuple other leftTags rightTags
    rw [List.length_map, List.length_map, ← same] at loop
    refine forall₂_trans loop.flip areJoined ?_
    rintro fragment positions item ⟨tuple, other, here, there, rfl⟩
      ⟨node, counterpart, nodeHere, nodeThere, _, _, reads⟩
    rw [List.getElem?_map, nodeHere, Option.map_some, Option.some.injEq] at here
    rw [List.getElem?_map, nodeThere, Option.map_some, Option.some.injEq] at there
    rw [List.map_append, Node.map_fragment_children viewFormed,
      Node.map_fragment_children viewFormed, here, there] at reads
    exact reads

end Yields

end TreeQuery
