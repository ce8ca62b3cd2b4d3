import Mathlib.Data.List.Basic
import TreeQuery.Path.Selection
import TreeQuery.Query.Join

/-!
# Nodes lead to nodes of the same arena

Parents, children, attributes and descendants of a node live where the node lives.  So a
path that starts in some arenas never leaves them, and what it selects does not depend on any
other arena (`Path.select_agree`); the same is true of filters, comparisons and the keys of
tuples.  Nothing is asked of the arenas themselves.
-/

set_option autoImplicit false

namespace TreeQuery

variable {Home : Type} {within : Home → Prop} {left right : View Home}
variable {node other : Node Home} {context items : List (Node Home)}

/-- Two views have the same arenas under some of the names. -/
def View.AgreeOn (within : Home → Prop) (left right : View Home) : Prop :=
  ∀ home, within home → right home = left home

/-- Nodes that live in arenas of some of the names. -/
def Within (within : Home → Prop) (context : List (Node Home)) : Prop :=
  ∀ node ∈ context, within node.home

/-! ## Lists of nodes -/

theorem any_congr_mem {α : Type} {members : List α} {passes also : α → Bool}
    (same : ∀ member ∈ members, passes member = also member) :
    members.any passes = members.any also := by
  induction members with
  | nil => rfl
  | cons first rest ih =>
      rw [List.any_cons, List.any_cons, same first List.mem_cons_self,
        ih fun member listed => same member (List.mem_cons_of_mem _ listed)]

namespace Within

theorem nil : Within within ([] : List (Node Home)) := List.forall_mem_nil _

theorem single (inside : within node.home) : Within within [node] := by
  rintro _ (_ | ⟨_, ⟨⟩⟩)
  exact inside

theorem of_home (inside : within node.home)
    (stays : ∀ other ∈ items, other.home = node.home) : Within within items := by
  intro other listed
  rw [stays other listed]
  exact inside

theorem append (first : Within within context) (second : Within within items) :
    Within within (context ++ items) := by
  intro node member
  exact (List.mem_append.mp member).elim (first node) (second node)

theorem filter (inside : Within within context) (passes : Node Home → Bool) :
    Within within (context.filter passes) :=
  fun node member => inside node ((List.mem_filter.mp member).1)

theorem eraseDups [DecidableEq Home] (inside : Within within context) :
    Within within context.eraseDups :=
  fun node member => inside node (List.mem_eraseDups.mp member)

/-- Nodes reached from nodes that lead nowhere else. -/
theorem flatMap {reach : Node Home → List (Node Home)}
    (stays : ∀ {node}, ∀ found ∈ reach node, found.home = node.home)
    (inside : Within within context) : Within within (context.flatMap reach) := by
  intro found member
  obtain ⟨node, listed, member⟩ := List.mem_flatMap.mp member
  rw [stays found member]
  exact inside node listed

theorem filterMap {reach : Node Home → Option (Node Home)}
    (stays : ∀ {node found}, reach node = some found → found.home = node.home)
    (inside : Within within context) : Within within (context.filterMap reach) := by
  intro found member
  obtain ⟨node, listed, reached⟩ := List.mem_filterMap.mp member
  rw [stays reached]
  exact inside node listed

end Within

/-! ## Single nodes -/

namespace Node

variable {view : View Home}

/-- What a node is linked to by slots lives where the node does. -/
theorem home_of_mem_siblings {slots : List Nat} :
    ∀ other ∈ slots.map node.sibling, other.home = node.home := by
  intro other listed
  obtain ⟨slot, _, rfl⟩ := List.mem_map.mp listed
  rfl

theorem home_of_sibling? {slot : Option Nat} (found : slot.map node.sibling = some other) :
    other.home = node.home := by
  obtain ⟨slot, _, rfl⟩ := Option.map_eq_some_iff.mp found
  rfl

theorem home_of_mem_children : ∀ other ∈ node.children view, other.home = node.home :=
  home_of_mem_siblings

theorem home_of_mem_attributes : ∀ other ∈ node.attributes view, other.home = node.home :=
  home_of_mem_siblings

theorem home_of_mem_descendantsOrSelf :
    ∀ other ∈ node.descendantsOrSelf view, other.home = node.home :=
  home_of_mem_siblings

theorem home_of_parent? (found : node.parent? view = some other) : other.home = node.home :=
  home_of_sibling? found

theorem home_of_attribute? {name : String} (found : node.attribute? view name = some other) :
    other.home = node.home :=
  home_of_sibling? found

section Agree

variable (agree : left.AgreeOn within right) (inside : within node.home)
include agree inside

theorem arena_agree : node.arena right = node.arena left := agree node.home inside

theorem record_agree : node.record right = node.record left := by
  rw [record, record, arena_agree agree inside]

theorem children_agree : node.children right = node.children left := by
  rw [children, children, record_agree agree inside]

theorem attributes_agree : node.attributes right = node.attributes left := by
  rw [attributes, attributes, record_agree agree inside]

theorem parent?_agree : node.parent? right = node.parent? left := by
  rw [parent?, parent?, record_agree agree inside]

theorem attribute?_agree (name : String) :
    node.attribute? right name = node.attribute? left name := by
  rw [attribute?, attribute?, arena_agree agree inside]

theorem descendantsOrSelf_agree :
    node.descendantsOrSelf right = node.descendantsOrSelf left := by
  rw [descendantsOrSelf, descendantsOrSelf, arena_agree agree inside]

theorem kind_agree : node.kind right = node.kind left := by
  rw [kind, kind, payload, payload, record_agree agree inside]

theorem isElementNamed_agree (name : String) :
    node.isElementNamed right name = node.isElementNamed left name := by
  rw [isElementNamed, isElementNamed, payload, payload, record_agree agree inside]

theorem fragment_agree : node.fragment right = node.fragment left := by
  rw [fragment, fragment, arena_agree agree inside]

theorem content_agree : node.content right = node.content left := by
  rw [content, content, arena_agree agree inside]

theorem stringValue_agree : node.stringValue right = node.stringValue left := by
  rw [stringValue, stringValue, arena_agree agree inside]

theorem valueKey_agree : node.valueKey right = node.valueKey left := by
  rw [valueKey, valueKey, content_agree agree inside]

end Agree

end Node

/-! ## Steps, comparisons and keys -/

section Lists

variable (agree : left.AgreeOn within right)
include agree

theorem flatMap_children_agree (inside : Within within context) :
    context.flatMap (·.children right) = context.flatMap (·.children left) :=
  List.flatMap_congr fun node member => node.children_agree agree (inside node member)

theorem anyStringValue_agree (inside : Within within context) (value : String) :
    anyStringValue right context value = anyStringValue left context value := by
  refine any_congr_mem fun node member => ?_
  rw [node.stringValue_agree agree (inside node member)]

theorem map_kind_agree (inside : Within within context) :
    context.map (·.kind right) = context.map (·.kind left) :=
  List.map_congr_left fun node member => node.kind_agree agree (inside node member)

theorem map_valueKey_agree (inside : Within within context) :
    context.map (·.valueKey right) = context.map (·.valueKey left) :=
  List.map_congr_left fun node member => node.valueKey_agree agree (inside node member)

theorem anyValueEq_agree (inside : Within within context) (also : Within within items) :
    anyValueEq right context items = anyValueEq left context items := by
  rw [anyValueEq, anyValueEq, map_valueKey_agree agree also]
  refine any_congr_mem fun node member => ?_
  rw [node.valueKey_agree agree (inside node member)]

/-- What is copied of nodes is what they are. -/
theorem flatMap_content_agree (inside : Within within context) :
    context.flatMap (·.content right) = context.flatMap (·.content left) :=
  List.flatMap_congr fun node member => node.content_agree agree (inside node member)

theorem tupleKey_agree (inside : within node.home) (tag : String) :
    node.tupleKey right tag = node.tupleKey left tag := by
  have children : Within within (node.children left) :=
    .of_home inside node.home_of_mem_children
  have fields := children.filter (·.isElementNamed left tag)
  have named : (node.children left).filter (·.isElementNamed right tag) =
      (node.children left).filter (·.isElementNamed left tag) :=
    List.filter_congr fun field listed =>
      field.isElementNamed_agree agree (children field listed) tag
  rw [Node.tupleKey, Node.tupleKey, node.children_agree agree inside, named,
    List.flatMap_congr fun field listed => congrArg₂ (· ++ ·)
      (field.attributes_agree agree (fields field listed))
      (field.children_agree agree (fields field listed))]
  refine map_valueKey_agree agree (fields.flatMap fun entry listed => ?_)
  rcases List.mem_append.mp listed with given | child
  · exact Node.home_of_mem_attributes entry given
  · exact Node.home_of_mem_children entry child

theorem tupleKeys_agree (order : KeyOrder) (side : Side) (tags : List String)
    (inside : Within within context) :
    tupleKeys right order side tags context = tupleKeys left order side tags context := by
  refine List.ext_getElem (by simp [tupleKeys]) fun position bound _ => ?_
  rw [tupleKeys, List.length_mapIdx] at bound
  simp only [tupleKeys, List.getElem_mapIdx,
    tupleKey_agree agree (inside _ (List.getElem_mem bound))]

/-- Tuples match by what is in their own arenas. -/
theorem matchTuples_agree (order : KeyOrder) (inside : Within within context)
    (also : Within within items) (leftTags rightTags : List String) :
    matchTuples right order context items leftTags rightTags =
      matchTuples left order context items leftTags rightTags := by
  rw [matchTuples, matchTuples, tupleKeys_agree agree order .left leftTags inside,
    tupleKeys_agree agree order .right rightTags also]

end Lists

/-! ## Paths and filters -/

section Paths

variable [DecidableEq Home] (agree : left.AgreeOn within right)
include agree

theorem expand_agree (axis : Axis) (inside : Within within context) :
    axis.expand right context = axis.expand left context ∧
      Within within (axis.expand left context) := by
  cases axis with
  | child => exact ⟨rfl, inside⟩
  | descendantOrSelf =>
      rw [Axis.expand, Axis.expand, List.flatMap_congr fun node member =>
        node.descendantsOrSelf_agree agree (inside node member)]
      exact ⟨rfl, (inside.flatMap Node.home_of_mem_descendantsOrSelf).eraseDups⟩

mutual
/-- **A path stays in the arenas where it starts and depends on no others.** -/
theorem Path.select_agree : (path : Path) → ∀ {context : List (Node Home)},
    Within within context →
      path.select right context = path.select left context ∧
        Within within (path.select left context)
  | .tag name, context, inside => by
      have children : Within within (context.flatMap (·.children left)) :=
        inside.flatMap Node.home_of_mem_children
      rw [Path.select, Path.select, flatMap_children_agree agree inside]
      refine ⟨List.filter_congr fun node member => ?_, children.filter _⟩
      rw [node.isElementNamed_agree agree (children node member)]
  | .wildcard, context, inside => by
      rw [Path.select, Path.select]
      exact ⟨flatMap_children_agree agree inside, inside.flatMap Node.home_of_mem_children⟩
  | .current, context, inside => by
      rw [Path.select, Path.select]
      exact ⟨rfl, inside⟩
  | .parent, context, inside => by
      rw [Path.select, Path.select, List.filterMap_congr fun node member =>
        node.parent?_agree agree (inside node member)]
      exact ⟨rfl, (inside.filterMap Node.home_of_parent?).eraseDups⟩
  | .text, context, inside => by
      have children : Within within (context.flatMap (·.children left)) :=
        inside.flatMap Node.home_of_mem_children
      rw [Path.select, Path.select, flatMap_children_agree agree inside]
      refine ⟨List.filter_congr fun node member => ?_, children.filter _⟩
      rw [node.kind_agree agree (children node member)]
  | .attribute name, context, inside => by
      rw [Path.select, Path.select, List.filterMap_congr fun node member =>
        node.attribute?_agree agree (inside node member) name]
      exact ⟨rfl, inside.filterMap Node.home_of_attribute?⟩
  | .parenthesized inner, context, inside => by
      rw [Path.select, Path.select]
      exact inner.select_agree inside
  | .step first axis second, context, inside => by
      obtain ⟨same, found⟩ := first.select_agree inside
      obtain ⟨expanded, starts⟩ := expand_agree agree axis found
      obtain ⟨reached, ends⟩ := second.select_agree starts
      rw [Path.select, Path.select, same, expanded, reached]
      exact ⟨rfl, ends.eraseDups⟩
  | .filtered base filter, context, inside => by
      obtain ⟨same, found⟩ := base.select_agree inside
      rw [Path.select, Path.select, same]
      exact ⟨List.filter_congr fun node member => filter.holds_agree (found node member),
        found.filter _⟩
  | .pair first second, context, inside => by
      obtain ⟨same, found⟩ := first.select_agree inside
      obtain ⟨also, others⟩ := second.select_agree inside
      rw [Path.select, Path.select, same, also]
      exact ⟨rfl, found.append others⟩

/-- A filter depends on no arena but the one of the node. -/
theorem Filter.holds_agree : (filter : Filter) → ∀ {node : Node Home}, within node.home →
    filter.holds right node = filter.holds left node
  | .path path, node, inside => by
      rw [Filter.holds, Filter.holds, (path.select_agree (.single inside)).1]
  | .valueEq first second, node, inside => by
      obtain ⟨same, found⟩ := first.select_agree (.single inside)
      obtain ⟨also, others⟩ := second.select_agree (.single inside)
      rw [Filter.holds, Filter.holds, same, also]
      exact anyValueEq_agree agree found others
  | .identityEq first second, node, inside => by
      rw [Filter.holds, Filter.holds, (first.select_agree (.single inside)).1,
        (second.select_agree (.single inside)).1]
  | .constantEq path value, node, inside => by
      obtain ⟨same, found⟩ := path.select_agree (.single inside)
      rw [Filter.holds, Filter.holds, same]
      exact anyStringValue_agree agree found value
  | .parenthesized inner, node, inside => by
      rw [Filter.holds, Filter.holds]
      exact inner.holds_agree inside
  | .and first second, node, inside => by
      rw [Filter.holds, Filter.holds, first.holds_agree inside, second.holds_agree inside]
  | .or first second, node, inside => by
      rw [Filter.holds, Filter.holds, first.holds_agree inside, second.holds_agree inside]
  | .not inner, node, inside => by
      rw [Filter.holds, Filter.holds, inner.holds_agree inside]
end

/-- A path that continues a context stays in its arenas and depends on no others. -/
theorem Path.selectAlong_agree (path : Path) (axis : Axis) (inside : Within within context) :
    path.selectAlong right axis context = path.selectAlong left axis context ∧
      Within within (path.selectAlong left axis context) := by
  obtain ⟨expanded, starts⟩ := expand_agree agree axis inside
  obtain ⟨reached, ends⟩ := path.select_agree agree starts
  rw [Path.selectAlong, Path.selectAlong, expanded, reached]
  exact ⟨rfl, ends.eraseDups⟩

end Paths

end TreeQuery
