import Mathlib.Data.List.Nodup
import TreeQuery.Document.Collection
import TreeQuery.Proofs.Document.Growth

/-!
# Arenas are forests

What the links of an arena amount to, slot by slot: the record in slot zero is the only
document and has no parent; links lead to later slots of the right kinds, and back; a record
with a parent is listed by it exactly once, in one of its two lists; and no element gives a
name to two attributes.  This is the form in which other developments can use it
(`Arena.IsForest`); within this one, `Arena.WellFormed` states the same of all slots.

Whatever documents a program builds, reads or starts without nodes, and whatever texts and
elements it creates in them, in any order and around nodes of any of them, all of its arenas
are forests (`Collection.isForest_of_mem_createAll`).
-/

set_option autoImplicit false

namespace TreeQuery

namespace Arena

variable {arena : Arena}

/-- The records of an arena are linked as the nodes of a document are, and of elements and
texts that stand by themselves. -/
structure IsForest (arena : Arena) : Prop where
  root_lt : 0 < arena.size
  kind_eq_document_iff : ∀ slot < arena.size,
    (arena.record slot).payload.kind = .document ↔ slot = 0
  root_parent : (arena.record 0).parent = none
  link_lt : ∀ slot < arena.size, ∀ link ∈ arena.children slot ++ arena.attributes slot,
    slot < link ∧ link < arena.size
  child : ∀ slot < arena.size, ∀ child ∈ arena.children slot,
    ((arena.record child).payload.kind = .element ∨ (arena.record child).payload.kind = .text) ∧
      (arena.record child).parent = some slot
  given : ∀ slot < arena.size, ∀ given ∈ arena.attributes slot,
    (arena.record given).payload.kind = .attribute ∧ (arena.record given).parent = some slot
  listed_once : ∀ slot < arena.size, ∀ parent, (arena.record slot).parent = some parent →
    parent < arena.size ∧ (arena.children parent ++ arena.attributes parent).count slot = 1
  has_children : ∀ slot < arena.size, arena.children slot ≠ [] →
    (arena.record slot).payload.kind = .document ∨ (arena.record slot).payload.kind = .element
  has_attributes : ∀ slot < arena.size, arena.attributes slot ≠ [] →
    (arena.record slot).payload.kind = .element
  names_nodup : ∀ slot < arena.size,
    ((arena.attributes slot).map fun given => (arena.record given).payload.name?).Nodup

namespace WellFormed

variable {slot parent : Nat}

/-- No slot is twice among the children and attributes of a node. -/
theorem nodup_links (wellFormed : arena.WellFormed) (slot : Nat) :
    (arena.children slot ++ arena.attributes slot).Nodup := by
  refine List.Nodup.append (wellFormed.children_nodup slot) (wellFormed.names_nodup slot).of_map ?_
  exact fun link child given => wellFormed.child_not_given child given

/-- A node with a parent is linked from there once. -/
theorem count_links (wellFormed : arena.WellFormed)
    (linked : (arena.record slot).parent = some parent) :
    (arena.children parent ++ arena.attributes parent).count slot = 1 :=
  List.count_eq_one_of_mem (wellFormed.nodup_links parent)
    (List.mem_append.mpr (wellFormed.listed linked))

/-- Links lead to later slots. -/
theorem link_lt (wellFormed : arena.WellFormed) {link : Nat}
    (listed : link ∈ arena.children slot ++ arena.attributes slot) :
    slot < link ∧ link < arena.size := by
  rcases List.mem_append.mp listed with child | given
  · exact wellFormed.child_lt child
  · exact wellFormed.attribute_lt given

theorem isForest (wellFormed : arena.WellFormed) : arena.IsForest where
  root_lt := wellFormed.size_pos
  kind_eq_document_iff := by
    intro slot _
    constructor
    · intro kind
      cases payload : (arena.record slot).payload with
      | document => exact wellFormed.eq_root payload
      | _ => rw [payload] at kind; exact Kind.noConfusion kind
    · rintro rfl
      rw [wellFormed.root_payload]
      rfl
  root_parent := wellFormed.root_parent
  link_lt := fun _ _ _ listed => wellFormed.link_lt listed
  child := fun _ _ _ listed => ⟨wellFormed.child_kind listed, wellFormed.child_parent listed⟩
  given := fun _ _ _ listed =>
    ⟨wellFormed.attribute_kind listed, wellFormed.attribute_parent listed⟩
  listed_once := by
    intro slot inside parent linked
    have listed : slot ∈ arena.children parent ++ arena.attributes parent :=
      List.mem_append.mpr (wellFormed.listed linked)
    exact ⟨Nat.lt_trans (wellFormed.link_lt listed).1 inside, wellFormed.count_links linked⟩
  has_children := by
    intro slot _ children
    obtain ⟨child, listed⟩ := List.exists_mem_of_ne_nil _ children
    exact wellFormed.parent_kind listed
  has_attributes := by
    intro slot _ attributes
    obtain ⟨given, listed⟩ := List.exists_mem_of_ne_nil _ attributes
    exact wellFormed.owner_kind listed
  names_nodup := fun slot _ => wellFormed.names_nodup slot

end WellFormed

/-- A document that is read from a text is built from fragments. -/
theorem Reachable.load {uri : Option String} {text : String} {document : Document}
    (loaded : Document.load uri text = .ok document) : document.arena.Reachable := by
  rw [Document.load, Arena.load] at loaded
  split at loaded
  · obtain rfl := Except.ok.inj loaded
    exact .ofFragments _
  · cases loaded

end Arena

/-! ## Collections -/

namespace Collection

variable {collection : Collection}

/-- Every document of a collection is well formed. -/
def WellFormed (collection : Collection) : Prop :=
  ∀ document ∈ collection.documents, document.arena.WellFormed

/-- Every document of a collection can come about. -/
def Reachable (collection : Collection) : Prop :=
  ∀ document ∈ collection.documents, document.arena.Reachable

namespace Reachable

theorem wellFormed (reachable : collection.Reachable) : collection.WellFormed :=
  fun document member => (reachable document member).wellFormed

theorem empty : Collection.empty.Reachable := List.forall_mem_nil _

theorem add (reachable : collection.Reachable) {document : Document}
    (also : document.arena.Reachable) : (collection.add document).Reachable := by
  intro other member
  rcases List.mem_append.mp member with old | new
  · exact reachable other old
  · exact List.mem_singleton.mp new ▸ also

theorem modify (reachable : collection.Reachable) {change : Arena → Arena}
    (develops : ∀ arena : Arena, arena.Develops (change arena)) (number : Nat) :
    (collection.modify number change).Reachable := by
  intro document member
  obtain ⟨position, inside, rfl⟩ := List.mem_iff_getElem.mp member
  have inside : position < collection.documents.length := by
    rwa [Collection.modify, List.length_modify] at inside
  have before := reachable _ (List.getElem_mem inside)
  simp only [Collection.modify, List.getElem_modify]
  split
  · exact before.develops (develops _)
  · exact before

/-- After a creation all documents can have come about. -/
theorem create (reachable : collection.Reachable) (creation : Creation) :
    (collection.create creation).Reachable := by
  cases creation with
  | construction => exact reachable.add .empty
  | build uri fragments => exact reachable.add (.ofFragments fragments)
  | load uri text =>
      rw [Collection.create]
      split
      · rename_i document loaded
        exact reachable.add (.load loaded)
      · exact reachable
  | text number value => exact reachable.modify (fun _ => .createText value .refl) number
  | element number name items =>
      exact reachable.modify (fun _ => .createElement name _ .refl) number

theorem createAll (reachable : collection.Reachable) (creations : List Creation) :
    (collection.createAll creations).Reachable := by
  rw [Collection.createAll]
  induction creations generalizing collection with
  | nil => exact reachable
  | cons creation rest ih => exact ih (reachable.create creation)

end Reachable

/-- The documents of a program are well formed, whatever it has created before. -/
theorem wellFormed_createAll (creations : List Creation) :
    (Collection.empty.createAll creations).WellFormed :=
  (Reachable.empty.createAll creations).wellFormed

/-- **The arenas of a program are forests**, whatever it has created before. -/
theorem isForest_of_mem_createAll (creations : List Creation) (document : Document)
    (member : document ∈ (Collection.empty.createAll creations).documents) :
    document.arena.IsForest :=
  (wellFormed_createAll creations document member).isForest

/-- A document with an attribute given twice, from which an element of the same document is
created: around the attribute, the document node, and the element itself. -/
theorem isForest_of_mem_createAll_copies :
    let creations : List Creation :=
      [.construction, .build (some "f") [.element "a" [("k", "1"), ("k", "2")] [.text "t"]],
        .element 1 "b" [⟨1, 2⟩, ⟨1, 0⟩, ⟨1, 1⟩, ⟨0, 0⟩], .element 0 "c" [⟨1, 4⟩, ⟨1, 5⟩]]
    ∃ document ∈ (Collection.empty.createAll creations).documents,
      document.arena.size = 12 ∧ document.arena.IsForest := by
  intro creations
  let documents := (Collection.empty.createAll creations).documents
  have member : documents[1] ∈ documents := List.getElem_mem (by decide +kernel)
  exact ⟨documents[1], member, by decide +kernel, isForest_of_mem_createAll creations _ member⟩

end Collection

end TreeQuery
