import Mathlib.Data.List.Basic
import Mathlib.Data.List.Nodup
import Mathlib.Data.List.Perm.Subperm
import TreeQuery.Proofs.Document.Growth

/-!
# Reading well-formed arenas

The definitions that read an arena bound their recursion: a fragment by a depth, a
traversal by a number of visits.  In a well-formed arena neither bound is ever met, because
slots grow from parents to children and no node has two parents.  So fragments and
traversals satisfy the equations one expects: the fragment of a node is made of the
fragments of its children (`fragment_eq`), and a node's descendants are those of its
children, one child after the other (`descendantsOrSelf_eq`).
-/

set_option autoImplicit false

namespace TreeQuery

/-- The attributes of an element; no other fragment has any. -/
def Fragment.attributes : Fragment → List (String × String)
  | .element _ attributes _ => attributes
  | _ => []

/-- The kind of node that a fragment is read from, the document node left aside. -/
def Fragment.kind : Fragment → Kind
  | .element _ _ _ => .element
  | .attribute _ _ => .attribute
  | .text _ => .text

namespace Arena

variable {arena : Arena} {slot : Nat}

/-- In a well-formed arena, what holds of a node if it holds of its children holds of every
node. -/
theorem WellFormed.induction (wellFormed : arena.WellFormed) {holds : Nat → Prop}
    (step : ∀ slot, (∀ child ∈ arena.children slot, holds child) → holds slot) (slot : Nat) :
    holds slot := by
  generalize left : arena.size - slot = depth
  induction depth using Nat.strongRecOn generalizing slot with
  | ind depth ih =>
      refine step slot fun child listed => ih (arena.size - child) ?_ child rfl
      have := wellFormed.child_lt listed
      omega

/-! ## Fragments -/

/-- The fragment that a node is the top of, given the fragments of its children. -/
def topFragment (arena : Arena) (slot : Nat) (below : List Fragment) : Fragment :=
  match (arena.record slot).payload with
  | .document => .element "" (arena.attributeValues slot) below
  | .element name => .element name (arena.attributeValues slot) below
  | .attribute name value => .attribute name value
  | .text value => .text value

theorem fragmentWithin_zero (slot : Nat) :
    arena.fragmentWithin 0 slot = arena.topFragment slot [] := by
  unfold fragmentWithin topFragment
  cases (arena.record slot).payload <;> rfl

theorem fragmentWithin_succ (depth slot : Nat) :
    arena.fragmentWithin (depth + 1) slot =
      arena.topFragment slot ((arena.children slot).map (arena.fragmentWithin depth)) := by
  unfold fragmentWithin topFragment
  cases (arena.record slot).payload <;> rfl

/-- More depth than there are slots above a node makes no difference. -/
theorem WellFormed.fragmentWithin_stable (wellFormed : arena.WellFormed) :
    ∀ (depth slot : Nat), arena.size ≤ slot + depth →
      arena.fragmentWithin depth slot = arena.fragmentWithin (depth + 1) slot := by
  intro depth
  induction depth with
  | zero =>
      intro slot enough
      have outside : arena.size ≤ slot := enough
      rw [fragmentWithin_zero, fragmentWithin_succ, children,
        (links_of_size_le outside).2.1, List.map_nil]
  | succ depth ih =>
      intro slot enough
      rw [fragmentWithin_succ, fragmentWithin_succ (depth + 1)]
      congr 1
      refine List.map_congr_left fun child listed => ih child ?_
      have := wellFormed.child_lt listed
      omega

/-- The fragment of a node is made of the fragments of its children. -/
theorem WellFormed.fragment_eq (wellFormed : arena.WellFormed) (slot : Nat) :
    arena.fragment slot = arena.topFragment slot ((arena.children slot).map arena.fragment) := by
  obtain ⟨depth, size⟩ := Nat.exists_eq_succ_of_ne_zero (Nat.ne_of_gt wellFormed.size_pos)
  have unfolded : arena.fragment slot =
      arena.topFragment slot ((arena.children slot).map (arena.fragmentWithin depth)) := by
    rw [fragment, size, Nat.succ_eq_add_one, fragmentWithin_succ]
  rw [unfolded]
  congr 1
  refine List.map_congr_left fun child listed => ?_
  rw [wellFormed.fragmentWithin_stable depth child, fragment, size]
  have := wellFormed.child_lt listed
  omega

/-! ## Parts of fragments -/

theorem WellFormed.kind_fragment (wellFormed : arena.WellFormed)
    (below : (arena.record slot).payload.kind ≠ .document) :
    (arena.fragment slot).kind = (arena.record slot).payload.kind := by
  rw [wellFormed.fragment_eq, topFragment]
  cases payload : (arena.record slot).payload with
  | document => exact absurd (payload ▸ rfl) below
  | _ => rfl

/-- The children of a node's fragment are the fragments of its children. -/
theorem WellFormed.children_fragment (wellFormed : arena.WellFormed) (slot : Nat) :
    (arena.fragment slot).children = (arena.children slot).map arena.fragment := by
  have none_of_kind : (arena.record slot).payload.kind ≠ .document →
      (arena.record slot).payload.kind ≠ .element → arena.children slot = [] := by
    intro notDocument notElement
    refine List.eq_nil_iff_forall_not_mem.mpr fun child listed => ?_
    rcases wellFormed.parent_kind listed with kind | kind
    · exact notDocument kind
    · exact notElement kind
  rw [wellFormed.fragment_eq, topFragment]
  cases payload : (arena.record slot).payload with
  | document | element name => rfl
  | _ =>
      rw [none_of_kind (by rw [payload]; exact nofun) (by rw [payload]; exact nofun)]
      rfl

/-- The attributes of a node's fragment are the node's attributes as they are written. -/
theorem WellFormed.attributes_fragment (wellFormed : arena.WellFormed) (slot : Nat) :
    (arena.fragment slot).attributes = arena.attributeValues slot := by
  have none_of_kind : (arena.record slot).payload.kind ≠ .element →
      arena.attributeValues slot = [] := by
    intro notElement
    rw [attributeValues, List.map_eq_nil_iff]
    exact List.eq_nil_iff_forall_not_mem.mpr fun given listed =>
      notElement (wellFormed.owner_kind listed)
  rw [wellFormed.fragment_eq, topFragment]
  cases payload : (arena.record slot).payload with
  | document | element name => rfl
  | _ =>
      rw [none_of_kind (by rw [payload]; exact nofun)]
      rfl

/-- An attribute node as it is written. -/
def written (arena : Arena) (given : Nat) : String × String :=
  let payload := (arena.record given).payload
  (payload.name?.getD "", payload.value?.getD "")

theorem attributeValues_eq (arena : Arena) (slot : Nat) :
    arena.attributeValues slot = (arena.record slot).attributes.map arena.written := rfl

theorem WellFormed.payload_written (wellFormed : arena.WellFormed) {given : Nat}
    (listed : given ∈ (arena.record slot).attributes) :
    (arena.record given).payload = .attribute (arena.written given).1 (arena.written given).2 := by
  have kind := wellFormed.attribute_kind listed
  rw [written]
  cases payload : (arena.record given).payload <;>
    simp [payload, Payload.kind, Payload.name?, Payload.value?] at kind ⊢

/-- The fragment of an attribute node is the attribute as it is written. -/
theorem WellFormed.fragment_written (wellFormed : arena.WellFormed) {given : Nat}
    (listed : given ∈ (arena.record slot).attributes) :
    arena.fragment given = .attribute (arena.written given).1 (arena.written given).2 := by
  rw [wellFormed.fragment_eq, topFragment, wellFormed.payload_written listed]

/-! ## Descendants -/

/-- A node and its descendants down to a given depth, each before its own descendants. -/
def preorder (arena : Arena) : Nat → Nat → List Nat
  | 0, slot => [slot]
  | depth + 1, slot => slot :: (arena.children slot).flatMap (arena.preorder depth)

theorem WellFormed.preorder_stable (wellFormed : arena.WellFormed) :
    ∀ (depth slot : Nat), arena.size ≤ slot + depth →
      arena.preorder depth slot = arena.preorder (depth + 1) slot := by
  intro depth
  induction depth with
  | zero =>
      intro slot enough
      have outside : arena.size ≤ slot := enough
      rw [preorder, preorder, children, (links_of_size_le outside).2.1, List.flatMap_nil]
  | succ depth ih =>
      intro slot enough
      rw [preorder, preorder]
      congr 1
      refine List.flatMap_congr fun child listed => ih child ?_
      have := wellFormed.child_lt listed
      omega

/-- With as much depth as there are slots, the descendants of a node are those of its
children. -/
theorem WellFormed.preorder_eq (wellFormed : arena.WellFormed) (slot : Nat) :
    arena.preorder arena.size slot =
      slot :: (arena.children slot).flatMap (arena.preorder arena.size) := by
  rw [wellFormed.preorder_stable arena.size slot (Nat.le_add_left _ _), preorder]

theorem WellFormed.le_of_mem_preorder (wellFormed : arena.WellFormed) {depth : Nat} :
    ∀ {slot below : Nat}, below ∈ arena.preorder depth slot →
      slot ≤ below ∧ (slot < arena.size → below < arena.size) := by
  induction depth with
  | zero =>
      intro slot below member
      rw [preorder, List.mem_singleton] at member
      subst member
      exact ⟨Nat.le_refl _, id⟩
  | succ depth ih =>
      intro slot below member
      rw [preorder, List.mem_cons, List.mem_flatMap] at member
      rcases member with rfl | ⟨child, listed, member⟩
      · exact ⟨Nat.le_refl _, id⟩
      · obtain ⟨above, inside⟩ := wellFormed.child_lt listed
        obtain ⟨under, bounded⟩ := ih member
        exact ⟨by omega, fun _ => bounded inside⟩

/-- A descendant is the node itself, or its parent is a descendant. -/
theorem WellFormed.parent_mem_preorder (wellFormed : arena.WellFormed) {depth : Nat} :
    ∀ {slot below : Nat}, below ∈ arena.preorder depth slot →
      below = slot ∨ ∃ parent ∈ arena.preorder depth slot,
        (arena.record below).parent = some parent := by
  induction depth with
  | zero =>
      intro slot below member
      rw [preorder, List.mem_singleton] at member
      exact .inl member
  | succ depth ih =>
      intro slot below member
      rw [preorder, List.mem_cons, List.mem_flatMap] at member
      rcases member with rfl | ⟨child, listed, member⟩
      · exact .inl rfl
      · refine .inr ?_
        rcases ih member with rfl | ⟨parent, between, linked⟩
        · exact ⟨slot, by rw [preorder]; exact List.mem_cons_self, wellFormed.child_parent listed⟩
        · refine ⟨parent, ?_, linked⟩
          rw [preorder]
          exact List.mem_cons_of_mem _ (List.mem_flatMap.mpr ⟨child, listed, between⟩)

/-- Two children of one node have no descendant in common. -/
theorem WellFormed.eq_of_mem_preorder (wellFormed : arena.WellFormed) {depth first second : Nat}
    (firstListed : first ∈ arena.children slot) (secondListed : second ∈ arena.children slot) :
    ∀ {below : Nat}, below ∈ arena.preorder depth first → below ∈ arena.preorder depth second →
      first = second := by
  intro below
  induction below using Nat.strongRecOn with
  | ind below ih =>
      intro underFirst underSecond
      have firstAbove := wellFormed.child_lt firstListed
      have secondAbove := wellFormed.child_lt secondListed
      rcases wellFormed.parent_mem_preorder underFirst with rfl | ⟨parent, between, linked⟩
      · rcases wellFormed.parent_mem_preorder underSecond with same | ⟨parent, between, linked⟩
        · exact same
        · rw [wellFormed.child_parent firstListed, Option.some.injEq] at linked
          have := wellFormed.le_of_mem_preorder between
          omega
      · rcases wellFormed.parent_mem_preorder underSecond with
          rfl | ⟨other, otherBetween, otherLinked⟩
        · rw [wellFormed.child_parent secondListed, Option.some.injEq] at linked
          have := wellFormed.le_of_mem_preorder between
          omega
        · rw [linked, Option.some.injEq] at otherLinked
          subst otherLinked
          refine ih parent ?_ between otherBetween
          rcases wellFormed.listed linked with child | given
          · exact (wellFormed.child_lt child).1
          · exact (wellFormed.attribute_lt given).1

theorem WellFormed.preorder_nodup (wellFormed : arena.WellFormed) {depth : Nat} :
    ∀ (slot : Nat), (arena.preorder depth slot).Nodup := by
  induction depth with
  | zero =>
      intro slot
      rw [preorder]
      exact List.nodup_singleton _
  | succ depth ih =>
      intro slot
      rw [preorder, List.nodup_cons]
      refine ⟨?_, ?_⟩
      · rw [List.mem_flatMap]
        rintro ⟨child, listed, member⟩
        have := wellFormed.child_lt listed
        have := wellFormed.le_of_mem_preorder member
        omega
      · rw [List.nodup_flatMap]
        refine ⟨fun child _ => ih child, ?_⟩
        refine (wellFormed.children_nodup slot).pairwise_of_forall_ne ?_
        intro first firstListed second secondListed different below underFirst underSecond
        exact different
          (wellFormed.eq_of_mem_preorder firstListed secondListed underFirst underSecond)

theorem WellFormed.length_preorder_le (wellFormed : arena.WellFormed) (inside : slot < arena.size)
    (depth : Nat) : (arena.preorder depth slot).length ≤ arena.size := by
  have within : (arena.preorder depth slot).Subperm (List.range arena.size) :=
    (wellFormed.preorder_nodup slot).subperm fun below member =>
      List.mem_range.mpr ((wellFormed.le_of_mem_preorder member).2 inside)
  simpa using within.length_le

theorem visit_nil (limit : Nat) : arena.visit limit [] = [] := by
  cases limit <;> rfl

/-- A traversal visits the descendants of the slots on its stack, one slot after the other, as
far as it may make visits. -/
theorem WellFormed.visit_eq_take (wellFormed : arena.WellFormed) :
    ∀ (limit : Nat) (stack : List Nat),
      arena.visit limit stack = (stack.flatMap (arena.preorder arena.size)).take limit := by
  intro limit
  induction limit with
  | zero =>
      intro stack
      rw [visit, List.take_zero]
  | succ limit ih =>
      intro stack
      cases stack with
      | nil => rw [visit_nil, List.flatMap_nil, List.take_nil]
      | cons slot stack =>
          rw [visit, ih, List.flatMap_append, List.flatMap_cons, wellFormed.preorder_eq slot,
            List.cons_append, List.take_succ_cons]

/-- There are no more visits to make than there are slots. -/
theorem WellFormed.descendantsOrSelf_eq_preorder (wellFormed : arena.WellFormed)
    (inside : slot < arena.size) :
    arena.descendantsOrSelf slot = arena.preorder arena.size slot := by
  rw [descendantsOrSelf, wellFormed.visit_eq_take, List.flatMap_singleton]
  exact List.take_of_length_le (wellFormed.length_preorder_le inside _)

/-- A node's descendants are those of its children, one child after the other. -/
theorem WellFormed.descendantsOrSelf_eq (wellFormed : arena.WellFormed)
    (inside : slot < arena.size) : arena.descendantsOrSelf slot =
      slot :: (arena.children slot).flatMap arena.descendantsOrSelf := by
  rw [wellFormed.descendantsOrSelf_eq_preorder inside, wellFormed.preorder_eq slot]
  congr 1
  exact List.flatMap_congr fun child listed =>
    (wellFormed.descendantsOrSelf_eq_preorder (wellFormed.child_lt listed).2).symm

end Arena

end TreeQuery
