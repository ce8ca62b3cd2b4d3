import TreeQuery.Proofs.Node.Alike

/-!
# Matchings

Evaluating a query and evaluating another form of it construct nodes in different slots,
and the one may copy what the other does not.  A relation between the nodes of two views
is downward when related nodes are alike and their children and attributes are related one
by one; being alike is such a relation.  A matching also relates every node to at most one
other, so a sequence and its counterpart repeat nodes at the same places.  If parents are
related as well, the matching is upward.

Two alike nodes give rise to a matching of the nodes inside them (`Inside`): a node inside
the one is related to the node at the same place inside the other.
-/

set_option autoImplicit false

namespace TreeQuery

variable {Home : Type} {left middle right : View Home}

/-! ## Downward relations -/

/-- Related nodes are alike, and so on downwards. -/
structure Downward (left right : View Home) (Related : Node Home → Node Home → Prop) : Prop where
  alike : ∀ {node other}, Related node other → Node.Alike left right node other
  children : ∀ {node other}, Related node other →
    List.Forall₂ Related (node.children left) (other.children right)
  attributes : ∀ {node other}, Related node other →
    List.Forall₂ Related (node.attributes left) (other.attributes right)

namespace Downward

variable {Related : Node Home → Node Home → Prop} {node other : Node Home}

theorem attribute? (downward : Downward left right Related) (formedLeft : left.WellFormed)
    (formedRight : right.WellFormed) (related : Related node other) (name : String) :
    Option.Rel Related (node.attribute? left name) (other.attribute? right name) := by
  have asNodes : ∀ (view : View Home) (node : Node Home), node.attribute? view name =
      (node.attributes view).find? fun given => (given.payload view).name? == some name := by
    intro view node
    rw [Node.attribute?, Arena.attribute?, Node.attributes, List.find?_map]
    rfl
  rw [asNodes, asNodes]
  refine rel_find? (downward.attributes related) fun given => ?_
  rw [(downward.alike given).payload_eq formedLeft formedRight]

/-- The descendants of a node are those of its children, one child after the other. -/
theorem descendantsOrSelf_eq {view : View Home} (formed : view.WellFormed)
    (inside : node.Exists view) : node.descendantsOrSelf view =
      node :: (node.children view).flatMap (·.descendantsOrSelf view) := by
  rw [Node.descendantsOrSelf, Node.arena, (formed node.home).descendantsOrSelf_eq inside,
    List.map_cons, List.map_flatMap, Node.children, List.flatMap_map]
  rfl

/-- The descendants of related nodes are related one by one. -/
theorem descendantsOrSelf (downward : Downward left right Related) (formedLeft : left.WellFormed)
    (formedRight : right.WellFormed) (related : Related node other) :
    List.Forall₂ Related (node.descendantsOrSelf left) (other.descendantsOrSelf right) := by
  obtain ⟨home, slot⟩ := node
  induction slot using (formedLeft home).induction generalizing other with
  | step slot ih =>
      have alike := downward.alike related
      rw [descendantsOrSelf_eq formedLeft alike.exists_left,
        descendantsOrSelf_eq formedRight alike.exists_right]
      refine .cons related ?_
      have children := (List.forall₂_and_left _ _).mpr
        ⟨fun _ member => member, downward.children related⟩
      refine List.rel_flatMap children ?_
      rintro _ copy ⟨member, related⟩
      obtain ⟨child, listed, rfl⟩ := List.mem_map.mp member
      exact ih child listed related

end Downward

/-! ## Matchings -/

/-- A downward relation that relates every node to at most one other. -/
structure Matching (left right : View Home) (Same : Node Home → Node Home → Prop) : Prop
    extends Downward left right Same where
  left_unique : ∀ {node twin other}, Same node other → Same twin other → node = twin
  right_unique : ∀ {node other twin}, Same node other → Same node twin → other = twin

/-- The parents of related nodes are related. -/
def Upward (left right : View Home) (Same : Node Home → Node Home → Prop) : Prop :=
  ∀ node other, Same node other → Option.Rel Same (node.parent? left) (other.parent? right)

namespace Matching

variable {Same Also : Node Home → Node Home → Prop}

/-- Related nodes are equal to related nodes at the same places. -/
theorem eq_iff (matching : Matching left right Same) {node other twin copy : Node Home}
    (first : Same node other) (second : Same twin copy) : other = copy ↔ node = twin := by
  constructor
  · rintro rfl
    exact matching.left_unique first second
  · rintro rfl
    exact matching.right_unique first second

/-- A matching of matched nodes. -/
theorem comp (first : Matching left middle Same) (second : Matching middle right Also) :
    Matching left right (Relation.Comp Same Also) where
  alike := by
    rintro node other ⟨between, same, also⟩
    exact (first.alike same).trans (second.alike also)
  children := by
    rintro node other ⟨between, same, also⟩
    exact forall₂_trans (first.children same) (second.children also)
      fun same also => ⟨_, same, also⟩
  attributes := by
    rintro node other ⟨between, same, also⟩
    exact forall₂_trans (first.attributes same) (second.attributes also)
      fun same also => ⟨_, same, also⟩
  left_unique := by
    rintro node twin other ⟨between, same, also⟩ ⟨twinBetween, twinSame, twinAlso⟩
    obtain rfl := second.left_unique also twinAlso
    exact first.left_unique same twinSame
  right_unique := by
    rintro node other twin ⟨between, same, also⟩ ⟨twinBetween, twinSame, twinAlso⟩
    obtain rfl := first.right_unique same twinSame
    exact second.right_unique also twinAlso

theorem comp_upward (first : Upward left middle Same) (second : Upward middle right Also) :
    Upward left right (Relation.Comp Same Also) := by
  rintro node other ⟨between, same, also⟩
  exact rel_comp (first node between same) (second between other also)

/-- A matching stays one when something is constructed. -/
theorem extend (matching : Matching left right Same) {left' right' : View Home}
    (extendLeft : left.Extends left') (extendRight : right.Extends right') :
    Matching left' right' Same where
  alike same := (matching.alike same).extend extendLeft extendRight
  children := by
    intro node other same
    have alike := matching.alike same
    rw [Node.children_extend alike.exists_left extendLeft,
      Node.children_extend alike.exists_right extendRight]
    exact matching.children same
  attributes := by
    intro node other same
    have alike := matching.alike same
    rw [Node.attributes_extend alike.exists_left extendLeft,
      Node.attributes_extend alike.exists_right extendRight]
    exact matching.attributes same
  left_unique := matching.left_unique
  right_unique := matching.right_unique

/-- The parents of related nodes stay related when something is constructed. -/
theorem extend_upward (matching : Matching left right Same) (upward : Upward left right Same)
    {left' right' : View Home} (extendLeft : left.Extends left')
    (extendRight : right.Extends right') : Upward left' right' Same := by
  intro node other same
  have alike := matching.alike same
  rw [Node.parent?_extend alike.exists_left extendLeft,
    Node.parent?_extend alike.exists_right extendRight]
  exact upward _ _ same

/-- The nodes of a view match themselves. -/
theorem identity {view : View Home} (formed : view.WellFormed) :
    Matching view view fun node other => node.Exists view ∧ node = other where
  alike := by
    rintro node _ ⟨inside, rfl⟩
    exact .refl inside
  children := by
    rintro node _ ⟨_, rfl⟩
    exact List.forall₂_same.mpr fun child listed =>
      ⟨Node.exists_of_mem_children formed listed, rfl⟩
  attributes := by
    rintro node _ ⟨_, rfl⟩
    exact List.forall₂_same.mpr fun given listed =>
      ⟨Node.exists_of_mem_attributes formed listed, rfl⟩
  left_unique := by
    rintro node twin other ⟨_, rfl⟩ ⟨_, rfl⟩
    rfl
  right_unique := by
    rintro node other twin ⟨_, rfl⟩ ⟨_, rfl⟩
    rfl

theorem identity_upward {view : View Home} (formed : view.WellFormed) :
    Upward view view fun node other => node.Exists view ∧ node = other := by
  rintro node _ ⟨inside, rfl⟩
  cases found : node.parent? view with
  | none => exact .none
  | some parent => exact .some ⟨Node.exists_of_parent? formed inside found, rfl⟩

/-- Two matchings that speak of different nodes are one. -/
theorem union (first : Matching left right Same) (second : Matching left right Also)
    (apart : ∀ {node other twin copy}, Same node other → Also twin copy →
      node ≠ twin ∧ other ≠ copy) :
    Matching left right fun node other => Same node other ∨ Also node other where
  alike same := same.elim first.alike second.alike
  children := by
    rintro node other (same | also)
    · exact (first.children same).imp fun _ _ => .inl
    · exact (second.children also).imp fun _ _ => .inr
  attributes := by
    rintro node other (same | also)
    · exact (first.attributes same).imp fun _ _ => .inl
    · exact (second.attributes also).imp fun _ _ => .inr
  left_unique := by
    rintro node twin other (same | also) (twinSame | twinAlso)
    · exact first.left_unique same twinSame
    · exact absurd rfl (apart same twinAlso).2
    · exact absurd rfl (apart twinSame also).2
    · exact second.left_unique also twinAlso
  right_unique := by
    rintro node other twin (same | also) (twinSame | twinAlso)
    · exact first.right_unique same twinSame
    · exact absurd rfl (apart same twinAlso).1
    · exact absurd rfl (apart twinSame also).1
    · exact second.right_unique also twinAlso

theorem union_upward (first : Upward left right Same) (second : Upward left right Also) :
    Upward left right fun node other => Same node other ∨ Also node other := by
  have weaken : ∀ {Related Weaker : Node Home → Node Home → Prop} {parent counterpart},
      (∀ node other, Related node other → Weaker node other) →
        Option.Rel Related parent counterpart → Option.Rel Weaker parent counterpart := by
    intro Related Weaker parent counterpart implies related
    cases related with
    | none => exact .none
    | some related => exact .some (implies _ _ related)
  rintro node other (same | also)
  · exact weaken (fun _ _ => .inl) (first node other same)
  · exact weaken (fun _ _ => .inr) (second node other also)

end Matching

/-! ## Inside two alike nodes -/

/-- Nodes at the same place inside two nodes. -/
inductive Inside (left right : View Home) (top copy : Node Home) :
    Node Home → Node Home → Prop where
  | top : Inside left right top copy top copy
  | child {node other child counterpart : Node Home} :
      Inside left right top copy node other →
      (child, counterpart) ∈ (node.children left).zip (other.children right) →
      Inside left right top copy child counterpart
  | given {node other given counterpart : Node Home} :
      Inside left right top copy node other →
      (given, counterpart) ∈ (node.attributes left).zip (other.attributes right) →
      Inside left right top copy given counterpart

namespace Inside

variable {top copy node other : Node Home}

theorem symm (inside : Inside left right top copy node other) :
    Inside right left copy top other node := by
  induction inside with
  | top => exact .top
  | child _ paired ih =>
      refine .child ih ?_
      rw [← List.zip_swap, List.mem_map]
      exact ⟨_, paired, rfl⟩
  | given _ paired ih =>
      refine .given ih ?_
      rw [← List.zip_swap, List.mem_map]
      exact ⟨_, paired, rfl⟩

/-- What is inside a node is in the same arena and not before it. -/
theorem not_before (formed : left.WellFormed) (inside : Inside left right top copy node other) :
    node.home = top.home ∧ top.slot ≤ node.slot := by
  induction inside with
  | top => exact ⟨rfl, Nat.le_refl _⟩
  | child _ paired ih =>
      obtain ⟨slot, listed, rfl⟩ := List.mem_map.mp (List.of_mem_zip paired).1
      exact ⟨ih.1, Nat.le_trans ih.2 (Nat.le_of_lt ((formed _).child_lt listed).1)⟩
  | given _ paired ih =>
      obtain ⟨slot, listed, rfl⟩ := List.mem_map.mp (List.of_mem_zip paired).1
      exact ⟨ih.1, Nat.le_trans ih.2 (Nat.le_of_lt ((formed _).attribute_lt listed).1)⟩

/-- A child or an attribute of a node inside is not the top. -/
theorem ne_top {twin : Node Home} (formed : left.WellFormed)
    (inside : Inside left right top copy node other) (after : node.slot < twin.slot) :
    twin ≠ top := by
  rintro rfl
  exact Nat.not_lt.mpr (inside.not_before formed).2 after

/-- A node inside has at most one counterpart, because it has one parent and one place
there. -/
theorem right_unique (formed : left.WellFormed)
    (inside : Inside left right top copy node other) {twin : Node Home}
    (also : Inside left right top copy node twin) : other = twin := by
  induction inside generalizing twin with
  | top =>
      cases also with
      | top => rfl
      | child between paired =>
          have after := (Node.parent?_of_mem_children formed (List.of_mem_zip paired).1).2
          exact absurd rfl (between.ne_top formed after)
      | given between paired =>
          have after := (Node.parent?_of_mem_attributes formed (List.of_mem_zip paired).1).2
          exact absurd rfl (between.ne_top formed after)
  | child between paired ih =>
      have listed := (List.of_mem_zip paired).1
      obtain ⟨parent, after⟩ := Node.parent?_of_mem_children formed listed
      cases also with
      | top => exact absurd rfl (between.ne_top formed after)
      | child otherwise otherPaired =>
          have otherParent :=
            (Node.parent?_of_mem_children formed (List.of_mem_zip otherPaired).1).1
          obtain rfl := Option.some.inj (parent.symm.trans otherParent)
          obtain rfl := ih otherwise
          exact eq_of_mem_zip (Node.nodup_children formed _) paired otherPaired
      | given otherwise otherPaired =>
          exact absurd (Node.kind_of_mem_attributes formed (List.of_mem_zip otherPaired).1)
            (Node.kind_ne_of_mem_children formed listed)
  | given between paired ih =>
      have listed := (List.of_mem_zip paired).1
      obtain ⟨parent, after⟩ := Node.parent?_of_mem_attributes formed listed
      cases also with
      | top => exact absurd rfl (between.ne_top formed after)
      | child otherwise otherPaired =>
          exact absurd (Node.kind_of_mem_attributes formed listed)
            (Node.kind_ne_of_mem_children formed (List.of_mem_zip otherPaired).1)
      | given otherwise otherPaired =>
          have otherParent :=
            (Node.parent?_of_mem_attributes formed (List.of_mem_zip otherPaired).1).1
          obtain rfl := Option.some.inj (parent.symm.trans otherParent)
          obtain rfl := ih otherwise
          exact eq_of_mem_zip (Node.nodup_attributes formed _) paired otherPaired

theorem alike (formedLeft : left.WellFormed) (formedRight : right.WellFormed)
    (alike : Node.Alike left right top copy) (inside : Inside left right top copy node other) :
    Node.Alike left right node other := by
  induction inside with
  | top => exact alike
  | child _ paired ih => exact List.forall₂_zip (ih.children formedLeft formedRight) paired
  | given _ paired ih => exact List.forall₂_zip (ih.attributes formedLeft formedRight) paired

/-- **The nodes inside two alike nodes match.** -/
theorem matching (formedLeft : left.WellFormed) (formedRight : right.WellFormed)
    (alike : Node.Alike left right top copy) :
    Matching left right (Inside left right top copy) where
  alike inside := inside.alike formedLeft formedRight alike
  children := by
    intro node other inside
    have children := (inside.alike formedLeft formedRight alike).children formedLeft formedRight
    exact List.forall₂_iff_zip.mpr ⟨children.length_eq, fun paired => .child inside paired⟩
  attributes := by
    intro node other inside
    have given := (inside.alike formedLeft formedRight alike).attributes formedLeft formedRight
    exact List.forall₂_iff_zip.mpr ⟨given.length_eq, fun paired => .given inside paired⟩
  left_unique first second := first.symm.right_unique formedRight second.symm
  right_unique first second := first.right_unique formedLeft second

/-- Inside two nodes without parents, parents match as well. -/
theorem upward (formedLeft : left.WellFormed) (formedRight : right.WellFormed)
    (rootLeft : top.parent? left = none) (rootRight : copy.parent? right = none) :
    Upward left right (Inside left right top copy) := by
  intro node other inside
  cases inside with
  | top =>
      rw [rootLeft, rootRight]
      exact .none
  | child between paired =>
      obtain ⟨listed, copyListed⟩ := List.of_mem_zip paired
      rw [(Node.parent?_of_mem_children formedLeft listed).1,
        (Node.parent?_of_mem_children formedRight copyListed).1]
      exact .some between
  | given between paired =>
      obtain ⟨listed, copyListed⟩ := List.of_mem_zip paired
      rw [(Node.parent?_of_mem_attributes formedLeft listed).1,
        (Node.parent?_of_mem_attributes formedRight copyListed).1]
      exact .some between

end Inside

end TreeQuery
