import TreeQuery.Proofs.Document.Loading
import TreeQuery.Proofs.Node.ValueKeys

/-!
# Copying nodes

Programs copy nodes in two ways: they create an element around them, and they build a document
from fragments, which can be those of nodes.  A new element takes the attributes among its items
as its own and has copies of all other items below it, where a document is copied by its children
(`Node.attributesIn_content`, `Node.childrenIn_content`).  A document that is built from fragments
consists of them, settled, and attributes that stand alone are dropped
(`Arena.content_ofFragments_eq_childrenIn`); what nodes read as is settled already.

Both are said of all states that a program can bring about (`Collection.copies_faithful`).
-/

set_option autoImplicit false

namespace TreeQuery

open Fragment

/-! ## Attributes among fragments -/

namespace Fragment

theorem attributesIn_flatMap {α : Type} (items : List α) (f : α → List Fragment) :
    attributesIn (items.flatMap f) = items.flatMap fun item => attributesIn (f item) :=
  List.filterMap_flatMap ..

theorem childrenIn_flatMap {α : Type} (items : List α) (f : α → List Fragment) :
    childrenIn (items.flatMap f) = items.flatMap fun item => childrenIn (f item) :=
  List.filter_flatMap ..

/-- Attributes that stand alone stay where they are. -/
theorem settleAll_childrenIn (fragments : List Fragment) :
    settleAll (childrenIn fragments) = childrenIn (settleAll fragments) := by
  rw [settleAll_eq_map, settleAll_eq_map, childrenIn, childrenIn, List.filter_map]
  congr 1
  apply List.filter_congr
  intro fragment _
  simp [isAttribute_settle]

end Fragment

/-! ## Documents from fragments -/

namespace Arena

/-- **A document that is built from fragments consists of those that are no attributes,
settled.** -/
theorem content_ofFragments_eq_childrenIn (fragments : List Fragment) :
    (Arena.ofFragments fragments).content 0 = childrenIn (settleAll fragments) := by
  have plain : ∀ fragment ∈ childrenIn fragments, fragment.isAttribute = false := by
    intro fragment member
    simpa using List.of_mem_filter member
  have notElement : (Arena.empty.record 0).payload.kind ≠ .element := by decide
  have same : Arena.ofFragments (childrenIn fragments) = Arena.ofFragments fragments :=
    graftAll_childrenIn fragments .empty ⟨Nat.one_pos, .inl rfl⟩ notElement
  rw [← same, content_ofFragments plain, settleAll_childrenIn]

end Arena

/-! ## What items give to an element -/

namespace Node

variable {Home : Type} (view : View Home) (item : Node Home)

/-- The attribute that an item gives to an element that is created around it. -/
def given? : Option (String × String) :=
  match item.payload view with
  | .attribute name value => some (name, value)
  | .document | .element _ | .text _ => none

/-- What an item adds below an element that is created around it: its fragment, or for a
document the fragments of its children. -/
def added : List Fragment :=
  match item.kind view with
  | .document => (item.children view).map (·.fragment view)
  | .attribute => []
  | .element | .text => [item.fragment view]

variable {view item}

theorem given?_eq_some {name value : String} :
    item.given? view = some (name, value) ↔ item.payload view = .attribute name value := by
  rw [given?]
  cases item.payload view <;> simp

theorem exists_given? (isAttribute : item.kind view = .attribute) :
    ∃ name value, item.given? view = some (name, value) := by
  rw [kind] at isAttribute
  cases payload : item.payload view with
  | «attribute» name value => exact ⟨name, value, given?_eq_some.mpr payload⟩
  | _ => simp [payload, Payload.kind] at isAttribute

theorem added_eq_nil (isAttribute : item.kind view = .attribute) : item.added view = [] := by
  rw [added, isAttribute]

/-- An element or a text adds itself. -/
theorem added_of_kind (notAttribute : item.kind view ≠ .attribute)
    (below : item.kind view ≠ .document) : item.added view = [item.fragment view] := by
  rw [added]
  cases kind : item.kind view <;> simp_all

theorem fragment_of_attribute (formed : view.WellFormed) {name value : String}
    (payload : item.payload view = .attribute name value) :
    item.fragment view = .attribute name value := by
  rw [Node.payload, record, arena] at payload
  rw [fragment, arena, (formed item.home).fragment_eq, Arena.topFragment, payload]

theorem content_of_document (payload : item.payload view = .document) :
    item.content view = (item.children view).map (·.fragment view) := by
  have copied : (item.arena view).content item.slot =
      ((item.arena view).children item.slot).map (item.arena view).fragment :=
    Arena.content_of_payload payload
  rw [content, copied, children, List.map_map]
  rfl

/-- What is constructed later changes nothing of what a node contributes. -/
theorem content_extend {before after : View Home} (inside : item.Exists before)
    (extend : before.Extends after) : item.content after = item.content before := by
  have still : item.payload after = item.payload before := by
    rw [Node.payload, record_extend inside extend, Node.payload]
  cases payload : item.payload before with
  | document =>
      rw [content_of_document (still.trans payload), content_of_document payload,
        children_extend inside extend]
      apply List.map_congr_left
      intro child listed
      exact fragment_extend (exists_of_mem_children extend.formed listed) extend
  | _ =>
      have below : item.kind before ≠ .document := by simp [kind, payload, Payload.kind]
      have belowStill : item.kind after ≠ .document := by
        simp [kind, still, payload, Payload.kind]
      rw [content_of_kind below, content_of_kind belowStill, fragment_extend inside extend]

theorem isAttribute_fragment (formed : view.WellFormed) :
    (item.fragment view).isAttribute = true ↔ item.kind view = .attribute :=
  (formed item.home).isAttribute_fragment item.slot

/-- The content of an item that is neither a document nor an attribute is what it adds. -/
theorem content_eq_added (notAttribute : item.kind view ≠ .attribute) :
    item.content view = item.added view := by
  cases payload : item.payload view with
  | document => rw [content_of_document payload, added, kind, payload, Payload.kind]
  | _ =>
      have below : item.kind view ≠ .document := by simp [kind, payload, Payload.kind]
      rw [content_of_kind below, added_of_kind notAttribute below]

/-- What an item adds are no attributes. -/
theorem isAttribute_of_mem_added (formed : view.WellFormed) {fragment : Fragment}
    (member : fragment ∈ item.added view) : fragment.isAttribute = false := by
  by_cases isAttribute : item.kind view = .attribute
  · rw [added_eq_nil isAttribute] at member
    cases member
  · by_cases isDocument : item.kind view = .document
    · rw [added, isDocument] at member
      obtain ⟨child, listed, rfl⟩ := List.mem_map.mp member
      exact isAttribute_of_mem_children formed listed
    · rw [added_of_kind isAttribute isDocument, List.mem_singleton] at member
      rw [member, Bool.eq_false_iff, Ne, isAttribute_fragment formed]
      exact isAttribute

/-- Where an item is copied, its content is the attribute it gives and what it adds. -/
theorem content_eq (formed : view.WellFormed) (item : Node Home) :
    item.content view =
      ((item.given? view).map fun (name, value) => .attribute name value).toList ++
        item.added view := by
  cases payload : item.payload view with
  | «attribute» name value =>
      have below : item.kind view ≠ .document := by simp [kind, payload, Payload.kind]
      rw [content_of_kind below, fragment_of_attribute formed payload, given?, payload, added,
        kind, payload, Payload.kind]
      rfl
  | _ =>
      have notAttribute : item.kind view ≠ .attribute := by simp [kind, payload, Payload.kind]
      rw [content_eq_added notAttribute, given?, payload]
      rfl

theorem attributesIn_content (formed : view.WellFormed) (item : Node Home) :
    attributesIn (item.content view) = (item.given? view).toList := by
  have none : attributesIn (item.added view) = [] :=
    attributesIn_eq_nil fun _ member => isAttribute_of_mem_added formed member
  rw [content_eq formed, attributesIn_append, none, List.append_nil]
  cases item.given? view <;> rfl

theorem childrenIn_content (formed : view.WellFormed) (item : Node Home) :
    childrenIn (item.content view) = item.added view := by
  have all : childrenIn (item.added view) = item.added view :=
    childrenIn_eq_self fun _ member => isAttribute_of_mem_added formed member
  rw [content_eq formed, childrenIn_append, all]
  cases item.given? view <;> rfl

/-- The attributes of an element around items are those that the items give. -/
theorem attributesIn_flatMap_content (formed : view.WellFormed) (items : List (Node Home)) :
    attributesIn (items.flatMap (·.content view)) = items.filterMap (·.given? view) := by
  rw [attributesIn_flatMap, List.filterMap_eq_flatMap_toList]
  simp only [attributesIn_content formed]

/-- The children of an element around items are what the items add. -/
theorem childrenIn_flatMap_content (formed : view.WellFormed) (items : List (Node Home)) :
    childrenIn (items.flatMap (·.content view)) = items.flatMap (·.added view) := by
  rw [childrenIn_flatMap]
  simp only [childrenIn_content formed]

end Node

/-! ## Copies in collections -/

namespace Collection

variable {collection : Collection}

/-- A document that is added stands behind the others. -/
theorem view_add (collection : Collection) (document : Document) :
    (collection.add document).view collection.documents.length = document.arena := by
  rw [view, add, List.getElem?_concat_length]

/-- A document that is changed stands where it stood. -/
theorem view_modify {number : Nat} (listed : number < collection.documents.length)
    (change : Arena → Arena) :
    (collection.modify number change).view number = change (collection.view number) := by
  have found : collection.documents[number]? = some collection.documents[number] :=
    List.getElem?_eq_getElem listed
  rw [view, view, modify, List.getElem?_modify_eq, found]
  rfl

/-- **An element that is created around items says what they say**: it has the attributes among
them, and below it stand copies of the others. -/
theorem WellFormed.fragment_create_element (wellFormed : collection.WellFormed) {number : Nat}
    (listed : number < collection.documents.length) (name : String) (items : List (Node Nat)) :
    Node.fragment (collection.create (.element number name items)).view
        ⟨number, (collection.view number).size⟩ =
      .element name ((items.filterMap (·.given? collection.view)).foldl give [])
        (items.flatMap (·.added collection.view)) := by
  have formed := wellFormed.view
  have settled : ∀ fragment ∈ items.flatMap (·.content collection.view), fragment.Settled := by
    intro fragment member
    obtain ⟨item, _, member⟩ := List.mem_flatMap.mp member
    exact (formed item.home).settled_content item.slot fragment member
  rw [Node.fragment, Node.arena, Collection.create, view_modify listed,
    (formed number).fragment_createElement name settled, Node.attributesIn_flatMap_content formed,
    Node.childrenIn_flatMap_content formed]

/-- **A document that is built from fragments reads as the fragments that are no attributes,
settled.** -/
theorem fragments_create_build (collection : Collection) (uri : Option String)
    (fragments : List Fragment) :
    let later := (collection.create (.build uri fragments)).view
    ((Node.children later ⟨collection.documents.length, 0⟩).map fun child =>
        child.fragment later) =
      childrenIn (settleAll fragments) := by
  intro later
  have built : later collection.documents.length = .ofFragments fragments :=
    view_add collection ⟨uri, .ofFragments fragments⟩
  have payload : Node.payload later ⟨collection.documents.length, 0⟩ = .document := by
    rw [Node.payload, Node.record, Node.arena, built, Arena.payload_ofFragments]
  rw [← Node.content_of_document payload, Node.content, Node.arena, built,
    Arena.content_ofFragments_eq_childrenIn]

/-- A document that is built from what nodes read as reads as they do. -/
theorem WellFormed.fragments_create_build_fragments (wellFormed : collection.WellFormed)
    (uri : Option String) {nodes : List (Node Nat)}
    (notAttribute : ∀ node ∈ nodes, node.kind collection.view ≠ .attribute) :
    let fragments := nodes.map (·.fragment collection.view)
    let later := (collection.create (.build uri fragments)).view
    ((Node.children later ⟨collection.documents.length, 0⟩).map fun child =>
        child.fragment later) =
      fragments := by
  intro fragments later
  have formed := wellFormed.view
  have settled : ∀ fragment ∈ fragments, fragment.Settled := by
    refine List.forall_mem_map.mpr fun node _ => ?_
    exact (formed node.home).settled_fragment node.slot
  have plain : ∀ fragment ∈ fragments, fragment.isAttribute = false := by
    refine List.forall_mem_map.mpr fun node member => ?_
    rw [Bool.eq_false_iff, Ne, Node.isAttribute_fragment formed]
    exact notAttribute node member
  rw [fragments_create_build, Settled.settleAll_eq_self fragments settled,
    childrenIn_eq_self plain]

/-- **Copies are faithful**, whatever a program has created before.  An element that is created
around items has the attributes among them, where one given again replaces the earlier one, and
below it stand the other items, documents replaced by their children.  A document that is built
from fragments reads as they do, settled and without attributes at the top, and so a document
that is built from what elements and texts read as reads as they do. -/
theorem copies_faithful (creations : List Creation) :
    let collection := Collection.empty.createAll creations
    (∀ (number : Nat) (name : String) (items : List (Node Nat)),
      number < collection.documents.length →
        let later := (collection.create (.element number name items)).view
        Node.fragment later ⟨number, (collection.view number).size⟩ =
          .element name ((items.filterMap (·.given? collection.view)).foldl give [])
            (items.flatMap (·.added collection.view))) ∧
    (∀ (uri : Option String) (fragments : List Fragment),
      let later := (collection.create (.build uri fragments)).view
      ((Node.children later ⟨collection.documents.length, 0⟩).map fun child =>
          child.fragment later) =
        childrenIn (settleAll fragments)) ∧
    ∀ (uri : Option String) (nodes : List (Node Nat)),
      (∀ node ∈ nodes, node.kind collection.view ≠ .attribute) →
        let fragments := nodes.map (·.fragment collection.view)
        let later := (collection.create (.build uri fragments)).view
        ((Node.children later ⟨collection.documents.length, 0⟩).map fun child =>
            child.fragment later) =
          fragments := by
  intro collection
  have wellFormed : collection.WellFormed := wellFormed_createAll creations
  refine ⟨?_, ?_, ?_⟩
  · intro number name items listed
    exact wellFormed.fragment_create_element listed name items
  · intro uri fragments
    exact fragments_create_build collection uri fragments
  · intro uri nodes notAttribute
    exact wellFormed.fragments_create_build_fragments uri notAttribute

/-- An element around an attribute, the document it is in, and another attribute of its name;
and a document that is built from what is copied there. -/
theorem copies_faithful_repeated :
    let creations : List Creation :=
      [.construction,
        .build none
          [.element "a" [("k", "1"), ("k", "2")] [.text "t", .attribute "j" "3"],
            .attribute "k" "4", .element "b" [("k", "5")] []]]
    let collection := Collection.empty.createAll creations
    let items : List (Node Nat) := [⟨1, 2⟩, ⟨1, 0⟩, ⟨1, 4⟩, ⟨1, 6⟩]
    let later := (collection.create (.element 0 "c" items)).view
    let rebuilt := (collection.create (.build none [Node.fragment collection.view ⟨1, 1⟩])).view
    Node.fragment later ⟨0, 1⟩ =
        .element "c" [("k", "5"), ("j", "3")]
          [.element "a" [("k", "2"), ("j", "3")] [.text "t"], .element "b" [("k", "5")] []] ∧
      (Node.children rebuilt ⟨2, 0⟩).map (·.fragment rebuilt) =
        [.element "a" [("k", "2"), ("j", "3")] [.text "t"]] := by
  intro creations collection items later rebuilt
  obtain ⟨around, _, built⟩ := copies_faithful creations
  constructor
  · exact around 0 "c" items (by decide +kernel)
  · exact built none [⟨1, 1⟩] (by decide +kernel)

end Collection

end TreeQuery
