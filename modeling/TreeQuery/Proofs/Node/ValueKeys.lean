import TreeQuery.Proofs.Document.Forest
import TreeQuery.Proofs.Document.Merging
import TreeQuery.Proofs.Node.Alike

/-!
# Value keys

Comparison by value, keys of joins and indexes compare the compact forms of nodes.  In arenas
with plain names and without empty texts such a comparison loses nothing but the places where
texts are divided: two nodes below document nodes have one value key exactly if they are of one
kind and their fragments are the same once texts that follow each other are made one
(`Collection.valueKey_eq_iff`).
-/

set_option autoImplicit false

namespace TreeQuery

/-! ## Plain arenas -/

/-- Whether a text is not empty, and whether a name is plain. -/
def Payload.isPlain : Payload → Bool
  | .document => true
  | .element name | .attribute name _ => Markup.isPlainName name
  | .text value => !value.isEmpty

/-- Whether no text in an arena is empty and every name in it is plain. -/
def Arena.isPlain (arena : Arena) : Bool := arena.records.all (·.payload.isPlain)

namespace Arena

variable {arena : Arena} {slot : Nat}

theorem isPlain_payload (plain : arena.isPlain = true) (inside : slot < arena.size) :
    (arena.record slot).payload.isPlain = true := by
  have found : arena.record slot = arena.records[slot] := by
    rw [record, Array.getD_eq_getD_getElem?, Array.getElem?_eq_getElem inside, Option.getD_some]
  rw [found]
  exact Array.all_eq_true.mp plain slot inside

/-- The names of the attributes in a plain arena are plain. -/
theorem WellFormed.isPlainName_attributeValues (wellFormed : arena.WellFormed)
    (plain : arena.isPlain = true) (slot : Nat) :
    ∀ given ∈ arena.attributeValues slot, Markup.isPlainName given.1 = true := by
  rw [attributeValues_eq]
  refine List.forall_mem_map.mpr fun given listed => ?_
  have named := isPlain_payload plain (wellFormed.attribute_lt listed).2
  rwa [wellFormed.payload_written listed, Payload.isPlain] at named

/-- In a plain arena the fragments of all nodes but the document node are plain. -/
theorem WellFormed.plain_fragment (wellFormed : arena.WellFormed) (plain : arena.isPlain = true)
    (slot : Nat) : slot < arena.size → (arena.record slot).payload.kind ≠ .document →
      (arena.fragment slot).Plain := by
  induction slot using wellFormed.induction with
  | step slot ih =>
      intro inside notDocument
      have given := wellFormed.isPlainName_attributeValues plain slot
      have named := isPlain_payload plain inside
      have below : ∀ child ∈ (arena.children slot).map arena.fragment,
          child.isAttribute = false :=
        List.forall_mem_map.mpr fun _ listed => wellFormed.isAttribute_child listed
      have within : ∀ child ∈ (arena.children slot).map arena.fragment, child.Plain := by
        refine List.forall_mem_map.mpr fun child listed => ?_
        refine ih child listed (wellFormed.child_lt listed).2 ?_
        rcases wellFormed.child_kind listed with kind | kind <;> rw [kind] <;> exact nofun
      rw [wellFormed.fragment_eq slot, topFragment]
      cases payload : (arena.record slot).payload with
      | document => exact absurd (payload ▸ rfl) notDocument
      | element name =>
          rw [payload] at named
          exact .element named given below within
      | «attribute» name value =>
          rw [payload] at named
          exact .attribute value named
      | text value =>
          rw [payload, Payload.isPlain, Bool.not_eq_true', String.isEmpty_eq_false_iff] at named
          exact .text named

end Arena

/-! ## Nodes with one value key -/

namespace Node

variable {Home : Type} {left right : View Home} {node other : Node Home}

/-- The value key of a node is the compact form of its fragment. -/
theorem valueKey_eq_compact {view : View Home} (below : node.kind view ≠ .document) :
    node.valueKey view = (node.fragment view).compact := by
  rw [valueKey, content_of_kind below, Fragment.compactAll, Fragment.compactAll,
    String.append_empty]

theorem kind_eq_kind_fragment {view : View Home} (formed : view.WellFormed)
    (below : node.kind view ≠ .document) : node.kind view = (node.fragment view).kind :=
  ((formed node.home).kind_fragment below).symm

/-- Nodes below document nodes of plain arenas have one value key exactly if they are the same
up to where texts are divided. -/
theorem valueKey_eq_iff_merged (formed : left.WellFormed) (formedToo : right.WellFormed)
    (inside : node.Exists left) (insideToo : other.Exists right)
    (plain : (left node.home).isPlain = true) (plainToo : (right other.home).isPlain = true)
    (below : node.kind left ≠ .document) (belowToo : other.kind right ≠ .document) :
    node.valueKey left = other.valueKey right ↔
      node.kind left = other.kind right ∧
        (node.fragment left).merged = (other.fragment right).merged := by
  have plainFragment := (formed node.home).plain_fragment plain node.slot inside below
  have plainOther := (formedToo other.home).plain_fragment plainToo other.slot insideToo belowToo
  rw [valueKey_eq_compact below, valueKey_eq_compact belowToo]
  constructor
  · intro same
    have merged := plainFragment.merged_eq_of_compact_eq plainOther same
    refine ⟨?_, merged⟩
    rw [kind_eq_kind_fragment formed below, kind_eq_kind_fragment formedToo belowToo,
      ← Fragment.kind_merged, ← Fragment.kind_merged (other.fragment right)]
    exact congrArg Fragment.kind merged
  · rintro ⟨_, merged⟩
    rw [← Fragment.compact_merged, merged, Fragment.compact_merged]

end Node

/-! ## Nodes of documents -/

namespace Collection

theorem WellFormed.view {collection : Collection} (wellFormed : collection.WellFormed) :
    collection.view.WellFormed := by
  intro number
  rw [Collection.view]
  split
  · rename_i document found
    exact wellFormed document (List.mem_of_getElem? found)
  · exact .empty

/-- **Value keys show everything but the places where texts are divided**, for any two elements,
attributes or texts of documents that programs have created. -/
theorem valueKey_eq_iff (creations others : List Creation) (node other : Node Nat)
    (inside : node.Exists (Collection.empty.createAll creations).view)
    (insideToo : other.Exists (Collection.empty.createAll others).view)
    (plain : ((Collection.empty.createAll creations).view node.home).isPlain = true)
    (plainToo : ((Collection.empty.createAll others).view other.home).isPlain = true)
    (below : node.kind (Collection.empty.createAll creations).view ≠ .document)
    (belowToo : other.kind (Collection.empty.createAll others).view ≠ .document) :
    node.valueKey (Collection.empty.createAll creations).view =
        other.valueKey (Collection.empty.createAll others).view ↔
      node.kind (Collection.empty.createAll creations).view =
          other.kind (Collection.empty.createAll others).view ∧
        (node.fragment (Collection.empty.createAll creations).view).merged =
          (other.fragment (Collection.empty.createAll others).view).merged :=
  Node.valueKey_eq_iff_merged (wellFormed_createAll creations).view
    (wellFormed_createAll others).view inside insideToo plain plainToo below belowToo

/-- Two elements around one text, which is created whole in the one and in two parts in the
other. -/
theorem valueKey_eq_iff_divided :
    let creations : List Creation :=
      [.build (some "f") [.element "a" [("k", "<")] [.text "xy", .element "b" [] []]]]
    let others : List Creation :=
      [.construction, .text 0 "x", .text 0 "y",
        .build none [.element "a" [("k", "<")] [.text "x", .text "y", .element "b" [] []]]]
    let left := (Collection.empty.createAll creations).view
    let right := (Collection.empty.createAll others).view
    Node.valueKey left ⟨0, 1⟩ = Node.valueKey right ⟨1, 1⟩ ∧
      (Node.fragment left ⟨0, 1⟩).merged = (Node.fragment right ⟨1, 1⟩).merged := by
  intro creations others left right
  have same : Node.valueKey left ⟨0, 1⟩ = Node.valueKey right ⟨1, 1⟩ := by decide +kernel
  refine ⟨same, ((valueKey_eq_iff creations others ⟨0, 1⟩ ⟨1, 1⟩ ?_ ?_ ?_ ?_ ?_ ?_).mp same).2⟩
  · show (1 : Nat) < (left 0).size
    decide +kernel
  · show (1 : Nat) < (right 1).size
    decide +kernel
  · decide +kernel
  · decide +kernel
  · decide +kernel
  · decide +kernel

end Collection

end TreeQuery
