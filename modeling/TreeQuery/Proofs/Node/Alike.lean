import TreeQuery.Document.Node
import TreeQuery.Proofs.Document.Copies
import TreeQuery.Proofs.Lists

/-!
# Nodes that are alike

Two nodes of two views are alike when they are of one kind and have one fragment.  A copy
is alike its original.  Alike nodes agree in everything that does not look upwards and
does not ask which node it is: in their name, their value, their string value and their
value key, and their children and attributes are alike one by one.

What is constructed later changes nothing of this, because old nodes keep their records.
-/

set_option autoImplicit false

namespace TreeQuery

variable {Home : Type}

/-! ## Views and their nodes -/

/-- Every arena of a view is well formed. -/
def View.WellFormed (view : View Home) : Prop := ∀ home, (view home).WellFormed

/-- A view of well-formed arenas of which each has at most been added to. -/
structure View.Extends (before after : View Home) : Prop where
  formed : before.WellFormed
  still : after.WellFormed
  arena : ∀ home, (before home).Extends (after home)

theorem View.Extends.refl {view : View Home} (formed : view.WellFormed) : view.Extends view :=
  ⟨formed, formed, fun _ => .refl _⟩

namespace Node

variable {view left middle right before after : View Home} {node other third : Node Home}

/-- The slot of a node has a record. -/
def Exists (view : View Home) (node : Node Home) : Prop := node.slot < (view node.home).size

instance (view : View Home) (node : Node Home) : Decidable (node.Exists view) :=
  inferInstanceAs (Decidable (_ < _))

theorem Exists.extend (inside : node.Exists before) (extend : before.Extends after) :
    node.Exists after :=
  Nat.lt_of_lt_of_le inside (extend.arena node.home).size_le

theorem record_extend (inside : node.Exists before) (extend : before.Extends after) :
    node.record after = node.record before :=
  (extend.arena node.home).record_eq inside

theorem children_extend (inside : node.Exists before) (extend : before.Extends after) :
    node.children after = node.children before := by
  rw [children, record_extend inside extend, children]

theorem attributes_extend (inside : node.Exists before) (extend : before.Extends after) :
    node.attributes after = node.attributes before := by
  rw [attributes, record_extend inside extend, attributes]

theorem parent?_extend (inside : node.Exists before) (extend : before.Extends after) :
    node.parent? after = node.parent? before := by
  rw [parent?, record_extend inside extend, parent?]

theorem fragment_extend (inside : node.Exists before) (extend : before.Extends after) :
    node.fragment after = node.fragment before :=
  (extend.arena node.home).fragment_eq (extend.formed node.home) (extend.still node.home) inside

theorem exists_of_mem_children (formed : view.WellFormed) (listed : other ∈ node.children view) :
    other.Exists view := by
  obtain ⟨slot, member, rfl⟩ := List.mem_map.mp listed
  exact ((formed node.home).child_lt member).2

theorem exists_of_mem_attributes (formed : view.WellFormed)
    (listed : other ∈ node.attributes view) : other.Exists view := by
  obtain ⟨slot, member, rfl⟩ := List.mem_map.mp listed
  exact ((formed node.home).attribute_lt member).2

theorem exists_of_parent? (formed : view.WellFormed) (inside : node.Exists view)
    (found : node.parent? view = some other) : other.Exists view := by
  rw [parent?, Option.map_eq_some_iff] at found
  obtain ⟨slot, linked, rfl⟩ := found
  have below : slot < node.slot := by
    rcases (formed node.home).listed linked with child | given
    · exact ((formed node.home).child_lt child).1
    · exact ((formed node.home).attribute_lt given).1
  exact Nat.lt_trans below inside

/-- A child is linked to its parent and comes after it. -/
theorem parent?_of_mem_children (formed : view.WellFormed) (listed : other ∈ node.children view) :
    other.parent? view = some node ∧ node.slot < other.slot := by
  obtain ⟨slot, member, rfl⟩ := List.mem_map.mp listed
  refine ⟨?_, ((formed node.home).child_lt member).1⟩
  rw [parent?, Option.map_eq_some_iff]
  exact ⟨node.slot, (formed node.home).child_parent member, rfl⟩

theorem parent?_of_mem_attributes (formed : view.WellFormed)
    (listed : other ∈ node.attributes view) :
    other.parent? view = some node ∧ node.slot < other.slot := by
  obtain ⟨slot, member, rfl⟩ := List.mem_map.mp listed
  refine ⟨?_, ((formed node.home).attribute_lt member).1⟩
  rw [parent?, Option.map_eq_some_iff]
  exact ⟨node.slot, (formed node.home).attribute_parent member, rfl⟩

theorem sibling_injective (node : Node Home) : Function.Injective node.sibling :=
  fun _ _ same => congrArg Node.slot same

theorem nodup_children (formed : view.WellFormed) (node : Node Home) :
    (node.children view).Nodup :=
  ((formed node.home).children_nodup node.slot).map node.sibling_injective

theorem nodup_attributes (formed : view.WellFormed) (node : Node Home) :
    (node.attributes view).Nodup :=
  ((formed node.home).names_nodup node.slot).of_map.map node.sibling_injective

/-! ## Children and attributes of fragments -/

theorem map_fragment_children (formed : view.WellFormed) (node : Node Home) :
    (node.children view).map (·.fragment view) = (node.fragment view).children := by
  rw [fragment, arena, (formed node.home).children_fragment, children, List.map_map]
  rfl

theorem map_fragment_attributes (formed : view.WellFormed) (node : Node Home) :
    (node.attributes view).map (·.fragment view) =
      (node.fragment view).attributes.map fun (name, value) => .attribute name value := by
  rw [fragment, arena, (formed node.home).attributes_fragment, Arena.attributeValues_eq,
    attributes, List.map_map, List.map_map]
  exact List.map_congr_left fun given listed => (formed node.home).fragment_written listed

/-- A child is an element or a text, so its fragment shows its kind. -/
theorem kind_of_mem_children (formed : view.WellFormed) (listed : other ∈ node.children view) :
    other.kind view = (other.fragment view).kind := by
  obtain ⟨slot, member, rfl⟩ := List.mem_map.mp listed
  exact ((formed node.home).kind_fragment ((formed node.home).child_ne_document member)).symm

theorem kind_ne_of_mem_children (formed : view.WellFormed)
    (listed : other ∈ node.children view) : other.kind view ≠ .attribute := by
  obtain ⟨slot, member, rfl⟩ := List.mem_map.mp listed
  intro given
  rcases (formed node.home).child_kind member with kind | kind
  · exact Kind.noConfusion (given.symm.trans kind)
  · exact Kind.noConfusion (given.symm.trans kind)

theorem isAttribute_of_mem_children (formed : view.WellFormed)
    (listed : other ∈ node.children view) : (other.fragment view).isAttribute = false := by
  obtain ⟨slot, member, rfl⟩ := List.mem_map.mp listed
  exact (formed node.home).isAttribute_child member

theorem kind_of_mem_attributes (formed : view.WellFormed)
    (listed : other ∈ node.attributes view) : other.kind view = .attribute := by
  obtain ⟨slot, member, rfl⟩ := List.mem_map.mp listed
  exact (formed node.home).attribute_kind member

/-! ## Alike nodes -/

/-- Two nodes of one kind with one fragment. -/
structure Alike (left right : View Home) (node other : Node Home) : Prop where
  exists_left : node.Exists left
  exists_right : other.Exists right
  kind : other.kind right = node.kind left
  fragment : other.fragment right = node.fragment left

namespace Alike

theorem refl (inside : node.Exists view) : Alike view view node node :=
  ⟨inside, inside, rfl, rfl⟩

theorem trans (first : Alike left middle node other) (second : Alike middle right other third) :
    Alike left right node third :=
  ⟨first.exists_left, second.exists_right, second.kind.trans first.kind,
    second.fragment.trans first.fragment⟩

/-- Nodes stay alike when something is constructed. -/
theorem extend {left' right' : View Home} (alike : Alike left right node other)
    (extendLeft : left.Extends left') (extendRight : right.Extends right') :
    Alike left' right' node other where
  exists_left := alike.exists_left.extend extendLeft
  exists_right := alike.exists_right.extend extendRight
  kind := by
    have same := alike.kind
    rw [Node.kind, Node.kind, payload, payload] at same ⊢
    rw [record_extend alike.exists_left extendLeft, record_extend alike.exists_right extendRight]
    exact same
  fragment := by
    rw [fragment_extend alike.exists_left extendLeft,
      fragment_extend alike.exists_right extendRight, alike.fragment]

/-! ## What alike nodes have in common -/

section Reading

variable (formedLeft : left.WellFormed) (formedRight : right.WellFormed)
include formedLeft formedRight

theorem payload_eq (alike : Alike left right node other) :
    other.payload right = node.payload left := by
  have kind := alike.kind
  have fragment := alike.fragment
  rw [Node.fragment, Node.fragment, arena, arena, (formedLeft _).fragment_eq,
    (formedRight _).fragment_eq, Arena.topFragment, Arena.topFragment] at fragment
  rw [Node.kind, Node.kind, payload, payload, record, record, arena, arena] at kind
  rw [payload, payload, record, record, arena, arena]
  revert fragment kind
  cases ((left node.home).record node.slot).payload <;>
    cases ((right other.home).record other.slot).payload <;> simp_all [Payload.kind]

theorem isElementNamed_eq (alike : Alike left right node other) (name : String) :
    other.isElementNamed right name = node.isElementNamed left name := by
  rw [isElementNamed, isElementNamed, alike.payload_eq formedLeft formedRight]

omit formedLeft formedRight in
theorem stringValue_eq (alike : Alike left right node other) :
    other.stringValue right = node.stringValue left :=
  congrArg Fragment.stringValue alike.fragment

/-- The children of alike nodes are alike. -/
theorem children (alike : Alike left right node other) :
    List.Forall₂ (Alike left right) (node.children left) (other.children right) := by
  have fragments : (node.children left).map (·.fragment left) =
      (other.children right).map (·.fragment right) := by
    rw [map_fragment_children formedLeft, map_fragment_children formedRight, alike.fragment]
  refine forall₂_of_map_eq fragments fun child listed copy copyListed same => ?_
  exact ⟨exists_of_mem_children formedLeft listed, exists_of_mem_children formedRight copyListed,
    by rw [kind_of_mem_children formedLeft listed, kind_of_mem_children formedRight copyListed,
      same],
    same.symm⟩

/-- The attributes of alike nodes are alike. -/
theorem attributes (alike : Alike left right node other) :
    List.Forall₂ (Alike left right) (node.attributes left) (other.attributes right) := by
  have fragments : (node.attributes left).map (·.fragment left) =
      (other.attributes right).map (·.fragment right) := by
    rw [map_fragment_attributes formedLeft, map_fragment_attributes formedRight, alike.fragment]
  refine forall₂_of_map_eq fragments fun given listed copy copyListed same => ?_
  exact ⟨exists_of_mem_attributes formedLeft listed,
    exists_of_mem_attributes formedRight copyListed,
    (kind_of_mem_attributes formedRight copyListed).trans
      (kind_of_mem_attributes formedLeft listed).symm, same.symm⟩

/-- Alike nodes contribute the same where they are copied. -/
theorem content_eq (alike : Alike left right node other) :
    other.content right = node.content left := by
  have payload := alike.payload_eq formedLeft formedRight
  have fragments := congrArg Fragment.children alike.fragment
  rw [← map_fragment_children formedLeft, ← map_fragment_children formedRight] at fragments
  rw [Node.children, Node.children, List.map_map, List.map_map] at fragments
  rw [Node.payload, Node.payload, record, record, arena, arena] at payload
  rw [content, content, Arena.content, Arena.content, arena, arena, payload]
  split
  · exact fragments
  · exact congrArg ([·]) alike.fragment

theorem valueKey_eq (alike : Alike left right node other) :
    other.valueKey right = node.valueKey left :=
  congrArg Fragment.compactAll (alike.content_eq formedLeft formedRight)

end Reading

end Alike

/-! ## Nodes that read as a fragment -/

/-- A node other than the document node contributes its fragment. -/
theorem content_of_kind (below : node.kind view ≠ .document) :
    node.content view = [node.fragment view] := by
  rw [Node.kind, payload, record, arena] at below
  rw [content, Arena.content, arena]
  split
  · rename_i isDocument
    exact absurd (isDocument ▸ rfl) below
  · rfl

/-- A node other than the document node whose fragment is given. -/
structure Reads (view : View Home) (node : Node Home) (fragment : Fragment) : Prop where
  exists_view : node.Exists view
  kind : node.kind view ≠ .document
  fragment : node.fragment view = fragment

namespace Reads

variable {fragment : Fragment}

theorem extend (reads : node.Reads before fragment) (extend : before.Extends after) :
    node.Reads after fragment where
  exists_view := reads.exists_view.extend extend
  kind := by
    rw [Node.kind, payload, record_extend reads.exists_view extend]
    exact reads.kind
  fragment := (fragment_extend reads.exists_view extend).trans reads.fragment

theorem kind_eq (reads : node.Reads view fragment) (formed : view.WellFormed) :
    node.kind view = fragment.kind := by
  rw [← reads.fragment]
  exact ((formed node.home).kind_fragment reads.kind).symm

/-- Nodes that read as one fragment are alike. -/
theorem alike (reads : node.Reads left fragment) (also : other.Reads right fragment)
    (formedLeft : left.WellFormed) (formedRight : right.WellFormed) :
    Alike left right node other where
  exists_left := reads.exists_view
  exists_right := also.exists_view
  kind := (also.kind_eq formedRight).trans (reads.kind_eq formedLeft).symm
  fragment := also.fragment.trans reads.fragment.symm

theorem content_eq (reads : node.Reads view fragment) : node.content view = [fragment] := by
  rw [content_of_kind reads.kind, reads.fragment]

/-- A node that reads as an element is one, of that name. -/
theorem payload_eq {name : String} {attributes : List (String × String)}
    {children : List Fragment} (reads : node.Reads view (.element name attributes children))
    (formed : view.WellFormed) : node.payload view = .element name := by
  have kind := reads.kind_eq formed
  have fragment := reads.fragment
  rw [Node.kind, payload, record, arena] at kind
  rw [Node.fragment, arena, (formed node.home).fragment_eq, Arena.topFragment] at fragment
  rw [payload, record, arena]
  cases payload : ((view node.home).record node.slot).payload <;>
    simp_all [Payload.kind, Fragment.kind]

end Reads

/-- Nodes that read as fragments contribute them. -/
theorem flatMap_content_of_reads {fragments : List Fragment} {nodes : List (Node Home)}
    (reads : List.Forall₂ (fun fragment node => Reads view node fragment) fragments nodes) :
    nodes.flatMap (·.content view) = fragments := by
  induction reads with
  | nil => rfl
  | cons head _ ih => rw [List.flatMap_cons, head.content_eq, ih, List.singleton_append]

/-- Every child reads as its fragment. -/
theorem reads_of_mem_children (formed : view.WellFormed) (listed : other ∈ node.children view) :
    other.Reads view (other.fragment view) where
  exists_view := exists_of_mem_children formed listed
  kind := by
    obtain ⟨slot, member, rfl⟩ := List.mem_map.mp listed
    exact (formed node.home).child_ne_document member
  fragment := rfl

end Node

end TreeQuery
