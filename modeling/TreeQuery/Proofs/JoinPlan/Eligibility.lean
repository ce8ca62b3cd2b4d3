import TreeQuery.JoinPlan.Grouping
import TreeQuery.Proofs.Query.Walks

/-!
# What eligible expressions have

The checks of join planning promise three things that the later phases rely on.  Every
source is a walk off an earlier variable or a root, and ends at elements and texts
(`sourceParents_ok`).  The condition holds exactly if all of its equalities do, and it is
decided by reading only (`equalitiesOf_ok`).  Every side of an equality is a constant or a
walk off the variable that is said to own it (`operand?_ok`).
-/

set_option autoImplicit false

namespace TreeQuery

open Evaluation

variable {library : Library}

/-! ## Checks -/

/-- A check in two parts has succeeded if both have. -/
theorem bind_eq_ok {ε α β : Type} {check : Except ε α} {next : α → Except ε β} {result : β}
    (succeeds : check >>= next = .ok result) :
    ∃ value, check = .ok value ∧ next value = .ok result := by
  cases check with
  | error failure => exact nomatch succeeds
  | ok value => exact ⟨value, rfl, succeeds⟩

/-! ## Content -/

/-- A node that can be copied into a field and taken out again: an element or a text. -/
def Node.IsContent {Home : Type} (view : View Home) (node : Node Home) : Prop :=
  node.kind view = .element ∨ node.kind view = .text

theorem Node.isContent_of_mem_children {Home : Type} {view : View Home} {node other : Node Home}
    (formed : view.WellFormed) (listed : other ∈ node.children view) : other.IsContent view := by
  obtain ⟨slot, member, rfl⟩ := List.mem_map.mp listed
  exact (formed node.home).child_kind member

theorem Node.IsContent.kind_ne {Home : Type} {view : View Home} {node : Node Home}
    (content : node.IsContent view) : node.kind view ≠ .document := by
  rcases content with kind | kind <;> rw [kind] <;> exact nofun

theorem Node.IsContent.isAttribute {Home : Type} {view : View Home} {node : Node Home}
    (content : node.IsContent view) (formed : view.WellFormed) :
    (node.fragment view).isAttribute = false := by
  have kind : (node.fragment view).kind = node.kind view :=
    (formed node.home).kind_fragment content.kind_ne
  rcases content with same | same <;> rw [same] at kind <;> revert kind <;>
    cases node.fragment view <;> simp [Fragment.kind, Fragment.isAttribute]

namespace JoinPlan

/-- A path that ends in steps to elements and texts reaches children only. -/
theorem exists_parent_of_mem_select {Home : Type} [DecidableEq Home] {view : View Home} :
    (path : Path) → reachesContent path = true → ∀ {context : List (Node Home)},
      ∀ node ∈ path.select view context, ∃ parent : Node Home, node ∈ parent.children view
  | .tag name, _, context, node, member => by
      rw [Path.select, List.mem_filter, List.mem_flatMap] at member
      obtain ⟨⟨parent, _, listed⟩, _⟩ := member
      exact ⟨parent, listed⟩
  | .wildcard, _, context, node, member => by
      rw [Path.select, List.mem_flatMap] at member
      obtain ⟨parent, _, listed⟩ := member
      exact ⟨parent, listed⟩
  | .text, _, context, node, member => by
      rw [Path.select, List.mem_filter, List.mem_flatMap] at member
      obtain ⟨⟨parent, _, listed⟩, _⟩ := member
      exact ⟨parent, listed⟩
  | .parenthesized inner, content, context, node, member => by
      rw [Path.select] at member
      exact exists_parent_of_mem_select inner content node member
  | .step _ _ right, content, context, node, member => by
      rw [Path.select, List.mem_eraseDups] at member
      exact exists_parent_of_mem_select right content node member
  | .filtered base _, content, context, node, member => by
      rw [Path.select, List.mem_filter] at member
      exact exists_parent_of_mem_select base content node member.1
  | .pair left right, content, context, node, member => by
      rw [reachesContent, Bool.and_eq_true] at content
      rw [Path.select, List.mem_append] at member
      rcases member with member | member
      · exact exists_parent_of_mem_select left content.1 node member
      · exact exists_parent_of_mem_select right content.2 node member

/-- A path that ends in steps to elements and texts reaches nothing else. -/
theorem isContent_of_mem_select {Home : Type} [DecidableEq Home] {view : View Home}
    (formed : view.WellFormed) (path : Path) (content : reachesContent path = true)
    {context : List (Node Home)} : ∀ node ∈ path.select view context, node.IsContent view := by
  intro node member
  obtain ⟨parent, listed⟩ := exists_parent_of_mem_select path content node member
  exact Node.isContent_of_mem_children formed listed

theorem isContent_of_mem_selectAlong {Home : Type} [DecidableEq Home] {view : View Home}
    (formed : view.WellFormed) {path : Path} (content : reachesContent path = true)
    {axis : Axis} {context : List (Node Home)} :
    ∀ node ∈ path.selectAlong view axis context, node.IsContent view := by
  intro node member
  rw [Path.selectAlong, List.mem_eraseDups] at member
  exact isContent_of_mem_select formed path content node member

/-! ## Sources -/

/-- A query of the form that every source has: a path off a document or off a variable, to
elements and texts. -/
inductive IsSource : Query → Prop where
  | document {path : DocumentPath} :
      reachesContent path.path = true → IsSource (.document path)
  | reference {name : String} {axis : Axis} {path : Path} :
      reachesContent path = true → IsSource (.step (.reference name) axis path)

theorem IsSource.isContent {source : Query} (isSource : IsSource source) {view : View Home}
    (formed : view.WellFormed) {scope : Scope} :
    ∀ item ∈ source.walk view scope, item.IsContent view := by
  intro item member
  cases isSource with
  | document content =>
      rw [Query.walk] at member
      exact isContent_of_mem_selectAlong formed content item member
  | reference content =>
      rw [Query.walk] at member
      exact isContent_of_mem_selectAlong formed content item member

theorem sourceParent_ok {earlier : List Binding} {source : Query} {parent : Option Nat}
    (planned : sourceParent earlier source = .ok parent) :
    IsSource source ∧ parent =
      (pathOwner? source).bind fun owner => earlier.findIdx? (·.name == owner) := by
  unfold sourceParent at planned
  split at planned
  · split at planned
    · rename_i content
      exact ⟨.document content, (Except.ok.inj planned).symm⟩
    · exact nomatch planned
  · split at planned
    · rename_i content
      exact ⟨.reference content, (Except.ok.inj planned).symm⟩
    · exact nomatch planned
  · exact nomatch planned
  · exact nomatch planned

/-- The parents of bindings, as the later phases see them. -/
structure AreParents (bindings : List Binding) (parents : List (Option Nat)) : Prop where
  length : parents.length = bindings.length
  nodup : (bindings.map (·.name)).Nodup
  source : ∀ {i : Nat} {binding : Binding}, bindings[i]? = some binding → IsSource binding.source
  parent : ∀ {i : Nat} {binding : Binding}, bindings[i]? = some binding →
    parents[i]? = some ((pathOwner? binding.source).bind fun owner =>
      (bindings.take i).findIdx? (·.name == owner))

/-- One more binding, with a new name and a source of the right form. -/
theorem AreParents.concat {bindings : List Binding} {parents : List (Option Nat)}
    (areParents : AreParents bindings parents) {binding : Binding}
    (fresh : binding.name ∉ bindings.map (·.name)) (isSource : IsSource binding.source) :
    AreParents (bindings ++ [binding]) (parents ++ [(pathOwner? binding.source).bind fun owner =>
      bindings.findIdx? (·.name == owner)]) where
  length := by simp [areParents.length]
  nodup := by
    rw [List.map_append, List.map_singleton, ← List.concat_eq_append]
    exact areParents.nodup.concat fresh
  source := by
    intro i other found
    rcases Nat.lt_or_ge i bindings.length with before | last
    · rw [List.getElem?_append_left before] at found
      exact areParents.source found
    · rw [List.getElem?_append_right last, List.getElem?_singleton] at found
      split at found
      · exact Option.some.inj found ▸ isSource
      · exact nomatch found
  parent := by
    intro i other found
    rcases Nat.lt_or_ge i bindings.length with before | last
    · rw [List.getElem?_append_left before] at found
      rw [List.getElem?_append_left (areParents.length ▸ before), areParents.parent found,
        List.take_append_of_le_length (Nat.le_of_lt before)]
    · rw [List.getElem?_append_right last, List.getElem?_singleton] at found
      split at found
      · rename_i first
        obtain rfl := Option.some.inj found
        obtain rfl : i = bindings.length := by omega
        rw [List.getElem?_append_right (Nat.le_of_eq areParents.length), areParents.length,
          Nat.sub_self, List.getElem?_cons_zero, List.take_left]
      · exact nomatch found

/-- **The sources of an eligible expression are walks off earlier variables and roots.** -/
theorem sourceParents_ok : (bindings : List Binding) → ∀ {earlier : List Binding}
    {before parents : List (Option Nat)}, AreParents earlier before →
      sourceParents earlier bindings = .ok parents →
        AreParents (earlier ++ bindings) (before ++ parents)
  | [], earlier, before, parents, areParents, planned => by
      obtain rfl : [] = parents := Except.ok.inj planned
      rw [List.append_nil, List.append_nil]
      exact areParents
  | binding :: rest, earlier, before, parents, areParents, planned => by
      rw [sourceParents] at planned
      split at planned
      · exact nomatch planned
      · rename_i fresh
        obtain ⟨parent, planParent, planned⟩ := bind_eq_ok planned
        obtain ⟨others, planRest, planned⟩ := bind_eq_ok planned
        obtain rfl : parent :: others = parents := Except.ok.inj planned
        obtain ⟨isSource, rfl⟩ := sourceParent_ok planParent
        have fresh : binding.name ∉ earlier.map (·.name) := by simpa using fresh
        have planned := sourceParents_ok rest (areParents.concat fresh isSource) planRest
        rwa [List.append_assoc, List.append_assoc] at planned

/-! ## Walks off one variable -/

/-- A path off a bound variable is a walk. -/
theorem isWalk_of_pathOwner? {bound : String → Prop} {owner : String} (isBound : bound owner) :
    (query : Query) → pathOwner? query = some owner → query.IsWalk library bound
  | .reference name, owned => by
      obtain rfl := Option.some.inj owned
      exact isBound
  | .step base _ _, owned => isWalk_of_pathOwner? isBound base owned
  | .parenthesized inner, owned => isWalk_of_pathOwner? isBound inner owned

/-- A walk depends on the variable that it is a path off. -/
theorem walk_congr {view : View Home} {bound : String → Prop} {scope other : Scope}
    (agree : ∀ name, bound name → other.lookup name = scope.lookup name) :
    (query : Query) → query.IsWalk library bound → query.walk view other = query.walk view scope
  | .reference name, walks => by rw [Query.walk, Query.walk, agree name walks]
  | .document path, _ => by rw [Query.walk, Query.walk]
  | .parenthesized inner, walks => by
      rw [Query.walk, Query.walk, walk_congr agree inner walks]
  | .step base axis path, walks => by
      rw [Query.walk, Query.walk, walk_congr agree base walks]

theorem walk_unparenthesized (view : View Home) (scope : Scope) (query : Query) :
    query.unparenthesized.walk view scope = query.walk view scope := by
  induction query using Query.unparenthesized.induct with
  | case1 inner ih => rw [Query.unparenthesized, ih, Query.walk]
  | case2 query other => rw [Query.unparenthesized.eq_2 query other]

theorem pathOwner?_unparenthesized (query : Query) :
    pathOwner? query.unparenthesized = pathOwner? query := by
  induction query using Query.unparenthesized.induct with
  | case1 inner ih => rw [Query.unparenthesized, ih, pathOwner?]
  | case2 query other => rw [Query.unparenthesized.eq_2 query other]

/-! ## Sides of equalities -/

/-- An operand says what a query is: a constant, or a path off the variable of a binding. -/
def Operand.Describes (bindings : List Binding) (operand : Operand) (query : Query) : Prop :=
  match operand with
  | .constant value => query.constant? = some value
  | .path owner inner => query.constant? = none ∧ inner = query.unparenthesized ∧
      ∃ binding, bindings[owner]? = some binding ∧ pathOwner? query = some binding.name

theorem operand?_ok {bindings : List Binding} {query : Query} {operand : Operand}
    (planned : operand? bindings query = some operand) : operand.Describes bindings query := by
  rw [operand?] at planned
  split at planned
  · rename_i value constant
    obtain rfl := Option.some.inj planned
    show query.constant? = _
    rw [Query.constant?, constant]
  · rename_i path other
    obtain ⟨name, owned, planned⟩ := Option.bind_eq_some_iff.mp planned
    obtain ⟨owner, found, planned⟩ := Option.bind_eq_some_iff.mp planned
    obtain rfl := Option.some.inj planned
    obtain ⟨inside, named, _⟩ := List.findIdx?_eq_some_iff_getElem.mp found
    refine ⟨?_, rfl, bindings[owner], List.getElem?_eq_getElem inside, ?_⟩
    · rw [Query.constant?]
      split
      · rename_i value constant
        exact absurd constant (other value)
      · rfl
    · rw [← pathOwner?_unparenthesized, owned, eq_of_beq named]

/-- The binding whose variable a side is a path off. -/
def Operand.owner? : Operand → Option Nat
  | .constant _ => none
  | .path owner _ => some owner

/-- A side that is not a constant is a walk. -/
theorem Operand.Describes.isWalk {bindings : List Binding} {operand : Operand} {query : Query}
    (describes : operand.Describes bindings query) {bound : String → Prop}
    (binds : ∀ owner ∈ operand.owner?.toList, ∀ binding, bindings[owner]? = some binding →
      bound binding.name)
    (path : query.constant? = none) : query.IsWalk library bound := by
  cases operand with
  | constant value => exact nomatch path.symm.trans describes
  | path owner inner =>
      obtain ⟨_, _, binding, found, owned⟩ := describes
      exact isWalk_of_pathOwner? (binds owner List.mem_cons_self binding found) query owned

/-! ## Equalities -/

/-- The bindings whose variables the sides of an equality are paths off. -/
def Equality.owners (equality : Equality) : List Nat :=
  equality.left.owner?.toList ++ equality.right.owner?.toList

/-- The sides of an equality describe those of its condition. -/
inductive Equality.Describes (bindings : List Binding) : Equality → Prop where
  | intro {left right : Operand} {query other : Query} :
      left.Describes bindings query → right.Describes bindings other →
        Equality.Describes bindings ⟨left, right, .valueEq query other⟩

theorem Equality.Describes.exists_owner {bindings : List Binding} {equality : Equality}
    (describes : equality.Describes bindings) {owner : Nat} (owns : owner ∈ equality.owners) :
    ∃ binding, bindings[owner]? = some binding := by
  have found : ∀ {operand : Operand} {query : Query}, operand.Describes bindings query →
      owner ∈ operand.owner?.toList → ∃ binding, bindings[owner]? = some binding := by
    intro operand query describes owns
    cases operand with
    | constant value => exact nomatch owns
    | path other inner =>
        obtain rfl := List.mem_singleton.mp owns
        obtain ⟨_, _, binding, found, _⟩ := describes
        exact ⟨binding, found⟩
  cases describes with
  | intro left right => exact (List.mem_append.mp owns).elim (found left) (found right)

theorem Equality.Describes.isTest {bindings : List Binding} {equality : Equality}
    (describes : equality.Describes bindings) {bound : String → Prop}
    (binds : ∀ owner ∈ equality.owners, ∀ binding, bindings[owner]? = some binding →
      bound binding.name) :
    equality.source.IsTest library bound := by
  cases describes with
  | intro left right =>
      exact ⟨left.isWalk fun owner owns => binds owner (List.mem_append_left _ owns),
        right.isWalk fun owner owns => binds owner (List.mem_append_right _ owns)⟩

/-- **The condition of an eligible expression holds exactly if its equalities do.** -/
theorem equalitiesOf_ok {bindings : List Binding} : (condition : Condition) →
    ∀ {equalities : List Equality}, equalitiesOf bindings condition = .ok equalities →
      (∀ equality ∈ equalities, equality.Describes bindings) ∧
        ∀ {scope : Scope} {arena : Arena}, (∀ binding ∈ bindings, scope.Binds binding.name) →
          condition.holds library scope arena = .ok
            (equalities.all (·.source.test (library.view arena) scope)) arena
  | .and left right, equalities, planned => by
      rw [equalitiesOf] at planned
      obtain ⟨first, planLeft, planned⟩ := bind_eq_ok planned
      obtain ⟨second, planRight, planned⟩ := bind_eq_ok planned
      obtain rfl : first ++ second = equalities := Except.ok.inj planned
      obtain ⟨describeLeft, holdsLeft⟩ := equalitiesOf_ok left planLeft
      obtain ⟨describeRight, holdsRight⟩ := equalitiesOf_ok right planRight
      refine ⟨fun equality member => ?_, fun {scope arena} binds => ?_⟩
      · exact (List.mem_append.mp member).elim (describeLeft equality) (describeRight equality)
      · rw [Condition.holds, bind_ok (holdsLeft binds), List.all_append]
        cases first.all (·.source.test (library.view arena) scope) with
        | true => exact holdsRight binds
        | false => rfl
  | .parenthesized inner, equalities, planned => by
      rw [equalitiesOf] at planned
      obtain ⟨describe, holds⟩ := equalitiesOf_ok inner planned
      refine ⟨describe, fun binds => ?_⟩
      rw [Condition.holds, holds binds]
  | .valueEq left right, equalities, planned => by
      rw [equalitiesOf] at planned
      split at planned
      · rename_i leftOperand rightOperand foundLeft foundRight
        obtain rfl := Except.ok.inj planned
        have describes := Equality.Describes.intro (operand?_ok foundLeft) (operand?_ok foundRight)
        refine ⟨fun equality member => List.mem_singleton.mp member ▸ describes, fun binds => ?_⟩
        rw [Condition.holds_test _ (describes.isTest fun _ _ binding found =>
          binds binding (List.mem_of_getElem? found)), List.all_cons, List.all_nil, Bool.and_true]
      · exact nomatch planned

theorem checkCondition_ok {flwr : Flwr} {equalities : List Equality}
    (planned : checkCondition flwr = .ok equalities) :
    (∀ equality ∈ equalities, equality.Describes flwr.bindings) ∧
      ∀ {scope : Scope} {arena : Arena}, (∀ binding ∈ flwr.bindings, scope.Binds binding.name) →
        Condition.holdsIfPresent library flwr.condition scope arena = .ok
          (equalities.all (·.source.test (library.view arena) scope)) arena := by
  rw [checkCondition] at planned
  split at planned
  · rename_i absent
    obtain rfl := Except.ok.inj planned
    refine ⟨List.forall_mem_nil _, fun _ => ?_⟩
    rw [absent, Condition.holdsIfPresent]
    rfl
  · rename_i condition present
    obtain ⟨describe, holds⟩ := equalitiesOf_ok condition planned
    refine ⟨describe, fun binds => ?_⟩
    rw [present, Condition.holdsIfPresent]
    exact holds binds

theorem describes_of_checkCondition {flwr : Flwr} {equalities : List Equality}
    (planned : checkCondition flwr = .ok equalities) :
    ∀ equality ∈ equalities, equality.Describes flwr.bindings :=
  (@checkCondition_ok (fun name => .error (.unavailable name .unknown)) _ _ planned).1

end JoinPlan

/-! ## Conjunctions -/

/-- What joins keep holds of a nested list if it holds of all members. -/
theorem leftNested_induction {α : Type} {join : α → α → α} {Holds : α → Prop}
    (joins : ∀ {left right}, Holds left → Holds right → Holds (join left right)) :
    {members : List α} → (∀ member ∈ members, Holds member) → ∀ {joined : α},
      leftNested join members = some joined → Holds joined
  | first :: rest, all, _, rfl => List.foldlRecOn rest join (all first List.mem_cons_self)
      fun _ left member listed => joins left (all member (List.mem_cons_of_mem _ listed))

/-- A conjunction of tests holds exactly if all of them do. -/
theorem Condition.holds_conjunction {scope : Scope} {arena : Arena} {conditions : List Condition}
    (tests : ∀ condition ∈ conditions, condition.IsTest library scope.Binds) :
    Condition.holdsIfPresent library (Condition.conjunction conditions) scope arena =
      .ok (conditions.all (·.test (library.view arena) scope)) arena := by
  cases conditions with
  | nil =>
      rw [Condition.conjunction, leftNested, Condition.holdsIfPresent]
      rfl
  | cons first rest =>
      have nested : ∀ (rest : List Condition) (first : Condition),
          first.IsTest library scope.Binds →
          (∀ condition ∈ rest, condition.IsTest library scope.Binds) →
            (rest.foldl .and first).IsTest library scope.Binds ∧
              (rest.foldl .and first).test (library.view arena) scope =
                (first :: rest).all (·.test (library.view arena) scope) := by
        intro rest
        induction rest with
        | nil => exact fun first isTest _ => ⟨isTest, by simp⟩
        | cons next rest ih =>
            intro first isTest tests
            obtain ⟨isTest, value⟩ := ih (.and first next)
              ⟨isTest, tests next List.mem_cons_self⟩
              fun condition member => tests condition (List.mem_cons_of_mem _ member)
            refine ⟨isTest, value.trans ?_⟩
            rw [List.all_cons, Condition.test, List.all_cons, List.all_cons, Bool.and_assoc]
      obtain ⟨isTest, value⟩ := nested rest first (tests first List.mem_cons_self)
        fun condition member => tests condition (List.mem_cons_of_mem _ member)
      rw [Condition.conjunction, leftNested, Condition.holdsIfPresent,
        Condition.holds_test _ isTest, value]

end TreeQuery
