import TreeQuery.Proofs.Document.Records

/-!
# Well-formed arenas

Slot zero holds the only document node.  The children and attributes of a node are later
slots that name the node as their parent, each listed once, and every node with a parent
is listed there.  Only the document and elements have children, and these are elements and
texts; only elements have attributes, and no two of one element share a name.

Every arena that can be built is well formed: the empty arena is, and the three changes
keep the property.
-/

set_option autoImplicit false

namespace TreeQuery

namespace Arena

/-- The links of an arena are those of a forest with one document node. -/
structure WellFormed (arena : Arena) : Prop where
  size_pos : 0 < arena.size
  root_payload : (arena.record 0).payload = .document
  root_parent : (arena.record 0).parent = none
  eq_root : ∀ {slot : Nat}, (arena.record slot).payload = .document → slot = 0
  child_lt : ∀ {slot child : Nat}, child ∈ (arena.record slot).children →
    slot < child ∧ child < arena.size
  child_parent : ∀ {slot child : Nat}, child ∈ (arena.record slot).children →
    (arena.record child).parent = some slot
  child_kind : ∀ {slot child : Nat}, child ∈ (arena.record slot).children →
    (arena.record child).payload.kind = .element ∨ (arena.record child).payload.kind = .text
  attribute_lt : ∀ {slot given : Nat}, given ∈ (arena.record slot).attributes →
    slot < given ∧ given < arena.size
  attribute_parent : ∀ {slot given : Nat}, given ∈ (arena.record slot).attributes →
    (arena.record given).parent = some slot
  attribute_kind : ∀ {slot given : Nat}, given ∈ (arena.record slot).attributes →
    (arena.record given).payload.kind = .attribute
  listed : ∀ {slot parent : Nat}, (arena.record slot).parent = some parent →
    slot ∈ (arena.record parent).children ∨ slot ∈ (arena.record parent).attributes
  children_nodup : ∀ (slot : Nat), (arena.record slot).children.Nodup
  names_nodup : ∀ (slot : Nat),
    ((arena.record slot).attributes.map fun given => (arena.record given).payload.name?).Nodup
  parent_kind : ∀ {slot child : Nat}, child ∈ (arena.record slot).children →
    (arena.record slot).payload.kind = .document ∨ (arena.record slot).payload.kind = .element
  owner_kind : ∀ {slot given : Nat}, given ∈ (arena.record slot).attributes →
    (arena.record slot).payload.kind = .element

/-- A node that can be given children: the document node or an element. -/
structure IsContainer (arena : Arena) (slot : Nat) : Prop where
  lt_size : slot < arena.size
  kind : (arena.record slot).payload.kind = .document ∨
    (arena.record slot).payload.kind = .element

variable {arena : Arena} {slot parent owner : Nat} {payload : Payload} {name value : String}

/-! ## Attributes by name -/

theorem attribute?_eq_some {given : Nat} (found : arena.attribute? owner name = some given) :
    given ∈ (arena.record owner).attributes ∧
      (arena.record given).payload.name? = some name := by
  rw [attribute?] at found
  refine ⟨List.mem_of_find?_eq_some found, ?_⟩
  have named := List.find?_some found
  simpa using named

theorem attribute?_eq_none (missing : arena.attribute? owner name = none) {given : Nat}
    (listed : given ∈ (arena.record owner).attributes) :
    (arena.record given).payload.name? ≠ some name := by
  rw [attribute?, List.find?_eq_none] at missing
  simpa using missing given listed

namespace WellFormed

/-- No child is a document node. -/
theorem child_ne_document (wellFormed : arena.WellFormed) {child : Nat}
    (listed : child ∈ (arena.record slot).children) :
    (arena.record child).payload.kind ≠ .document := by
  rcases wellFormed.child_kind listed with kind | kind <;> rw [kind] <;> exact nofun

/-- No child is an attribute as well. -/
theorem child_not_given (wellFormed : arena.WellFormed) {child : Nat}
    (listed : child ∈ (arena.record slot).children) :
    child ∉ (arena.record owner).attributes := by
  intro given
  have kind := wellFormed.attribute_kind given
  rcases wellFormed.child_kind listed with other | other <;> rw [other] at kind <;> cases kind

/-! ## The changes keep arenas well formed -/

theorem empty : Arena.empty.WellFormed := by
  have links : ∀ slot, (Arena.empty.record slot).parent = none ∧
      (Arena.empty.record slot).children = [] ∧ (Arena.empty.record slot).attributes = [] := by
    intro slot
    rcases Nat.eq_zero_or_pos slot with rfl | positive
    · exact ⟨rfl, rfl, rfl⟩
    · exact links_of_size_le positive
  have payload : ∀ slot, (Arena.empty.record slot).payload = .document → slot = 0 := by
    intro slot isDocument
    rcases Nat.eq_zero_or_pos slot with zero | positive
    · exact zero
    · rw [record_of_size_le positive] at isDocument
      exact Payload.noConfusion isDocument
  constructor
  case size_pos => exact Nat.one_pos
  case root_payload | root_parent => rfl
  case eq_root => exact fun {slot} => payload slot
  all_goals simp [links]

/-- A text or an element without a parent. -/
theorem add (wellFormed : arena.WellFormed)
    (kind : payload.kind = .element ∨ payload.kind = .text) :
    (arena.add payload none).WellFormed := by
  have unlinked := links_of_size_le (Nat.le_refl arena.size)
  obtain ⟨_, _, _, _, _, _, _, _, _, _, _, _, names, _, _⟩ := id wellFormed
  constructor
  case names_nodup =>
    intro slot
    rw [attributes_add]
    refine (List.map_congr_left fun given listed => ?_) ▸ names slot
    rw [payload_add, if_neg (Nat.ne_of_lt (wellFormed.attribute_lt listed).2)]
  all_goals grind [payload_add, parent_add, children_add, attributes_add, size_add, Payload.kind]

theorem addChild (wellFormed : arena.WellFormed) (container : arena.IsContainer parent)
    (kind : payload.kind = .element ∨ payload.kind = .text) :
    (arena.addChild parent payload).WellFormed := by
  have unlinked := links_of_size_le (Nat.le_refl arena.size)
  have inside := container.lt_size
  have holds := container.kind
  obtain ⟨_, _, _, _, _, _, _, _, _, _, _, _, names, _, _⟩ := id wellFormed
  constructor
  case names_nodup =>
    intro slot
    rw [attributes_addChild inside]
    refine (List.map_congr_left fun given listed => ?_) ▸ names slot
    rw [payload_addChild inside, if_neg (Nat.ne_of_lt (wellFormed.attribute_lt listed).2)]
  all_goals grind [payload_addChild, parent_addChild, children_addChild, attributes_addChild,
    size_addChild, Payload.kind]

theorem setAttribute (wellFormed : arena.WellFormed) (inside : owner < arena.size)
    (kind : (arena.record owner).payload.kind = .element) :
    (arena.setAttribute owner name value).WellFormed := by
  have unlinked := links_of_size_le (Nat.le_refl arena.size)
  obtain ⟨_, _, _, _, _, _, _, _, _, _, _, _, names, _, _⟩ := id wellFormed
  cases found : arena.attribute? owner name with
  | some given =>
      obtain ⟨listed, named⟩ := attribute?_eq_some found
      have last := (wellFormed.attribute_lt listed).2
      have replaced := wellFormed.attribute_kind listed
      constructor
      case names_nodup =>
        intro slot
        rw [attributes_setAttribute_of_some found last]
        refine (List.map_congr_left fun other _ => ?_) ▸ names slot
        rw [payload_setAttribute_of_some found last]
        split
        · subst other
          rw [named]
          rfl
        · rfl
      all_goals grind [payload_setAttribute_of_some, parent_setAttribute_of_some,
        children_setAttribute_of_some, attributes_setAttribute_of_some, size_setAttribute_of_some,
        Payload.kind]
  | none =>
      constructor
      case names_nodup =>
        intro slot
        have old : ∀ given ∈ (arena.record slot).attributes,
            ((arena.setAttribute owner name value).record given).payload.name? =
              (arena.record given).payload.name? := by
          intro given listed
          rw [payload_setAttribute_of_none found inside,
            if_neg (Nat.ne_of_lt (wellFormed.attribute_lt listed).2)]
        rw [attributes_setAttribute_of_none found inside]
        split
        · subst slot
          rw [List.map_append, List.nodup_append, List.map_congr_left old]
          refine ⟨names owner, by simp, ?_⟩
          simp only [List.map_cons, List.map_nil, List.mem_singleton, List.mem_map]
          rintro _ ⟨given, listed, rfl⟩ _ rfl
          rw [payload_setAttribute_of_none found inside, if_pos rfl]
          exact attribute?_eq_none found listed
        · rw [List.map_congr_left old]
          exact names slot
      all_goals grind [payload_setAttribute_of_none, parent_setAttribute_of_none,
        children_setAttribute_of_none, attributes_setAttribute_of_none, size_setAttribute_of_none,
        Payload.kind]

end WellFormed

end Arena

end TreeQuery
