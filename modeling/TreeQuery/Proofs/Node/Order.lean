import Mathlib.Data.List.Pairwise
import Mathlib.Logic.Relation
import TreeQuery.Proofs.Node.Matching

/-!
# Document order

The nodes linked below a node are its attributes and then its children.  In document order a node
precedes everything below it, and of two nodes linked below one owner the first, with all that is
below it, precedes the second with all that is below that (`Node.Precedes`).  The order looks at
links alone: it does not depend on slots, and not on the node from which it is walked.  No two nodes
precede each other (`Node.Precedes.asymm`), so a list that is in document order repeats nothing and
can be in no other order.

A node and its descendants are listed in this order (`Node.pairwise_descendantsOrSelf`).
-/

set_option autoImplicit false

namespace TreeQuery.Node

open Relation

variable {Home : Type} {view : View Home} {node other owner first second : Node Home}

/-! ## Links -/

section

variable (view)

/-- The nodes linked below a node: its attributes, then its children. -/
def links (node : Node Home) : List (Node Home) := node.attributes view ++ node.children view

/-- A node and one linked below it. -/
def Owns (owner node : Node Home) : Prop := node ∈ owner.links view

/-- A node and a child of it. -/
def HasChild (owner node : Node Home) : Prop := node ∈ owner.children view

/-- A node and a descendant of it, other than itself. -/
def Descends (start node : Node Home) : Prop := TransGen (HasChild view) start node

/-- The first of two nodes comes before the second in document order. -/
inductive Precedes : Node Home → Node Home → Prop where
  | above {first second : Node Home} (below : TransGen (Owns view) first second) :
      Precedes first second
  | beside {owner left right first second : Node Home}
      (listed : [left, right].Sublist (owner.links view))
      (underLeft : ReflTransGen (Owns view) left first)
      (underRight : ReflTransGen (Owns view) right second) : Precedes first second

end

theorem Owns.of_hasChild (listed : HasChild view owner node) : Owns view owner node :=
  List.mem_append_right _ listed

/-- Each node is linked below one owner at most, and comes after it. -/
theorem Owns.parent? (formed : view.WellFormed) (owns : Owns view owner node) :
    node.parent? view = some owner ∧ owner.slot < node.slot := by
  rcases List.mem_append.mp owns with given | listed
  · exact parent?_of_mem_attributes formed given
  · exact parent?_of_mem_children formed listed

theorem Owns.owner_eq (formed : view.WellFormed) (owns : Owns view owner node)
    (also : Owns view other node) : owner = other := by
  have linked := (owns.parent? formed).1
  rw [(also.parent? formed).1, Option.some.injEq] at linked
  exact linked.symm

theorem nodup_links (formed : view.WellFormed) (node : Node Home) : (node.links view).Nodup := by
  refine List.nodup_append.mpr ⟨nodup_attributes formed node, nodup_children formed node, ?_⟩
  rintro given inAttributes child inChildren rfl
  obtain ⟨slot, listed, rfl⟩ := List.mem_map.mp inAttributes
  exact kind_ne_of_mem_children formed inChildren ((formed node.home).attribute_kind listed)

/-! ## What is below a node -/

theorem slot_le_of_below (formed : view.WellFormed) (below : ReflTransGen (Owns view) node other) :
    node.slot ≤ other.slot := by
  induction below with
  | refl => exact Nat.le_refl _
  | tail _ owns ih => exact Nat.le_trans ih (Nat.le_of_lt (owns.parent? formed).2)

/-- Of two nodes linked below one owner, neither is below the other. -/
theorem Owns.eq_of_below (formed : view.WellFormed) (owns : Owns view owner first)
    (also : Owns view owner second) (below : ReflTransGen (Owns view) first second) :
    first = second := by
  rcases ReflTransGen.cases_tail below with same | ⟨last, below, last_owns⟩
  · exact same.symm
  · rw [last_owns.owner_eq formed also] at below
    exact absurd (slot_le_of_below formed below) (Nat.not_le_of_gt (owns.parent? formed).2)

/-- Of two nodes with a common node below them, one is below the other. -/
theorem below_or_below (formed : view.WellFormed) (below : ReflTransGen (Owns view) first node)
    (also : ReflTransGen (Owns view) second node) :
    ReflTransGen (Owns view) first second ∨ ReflTransGen (Owns view) second first := by
  have unique : Relator.RightUnique (Function.swap (Owns view)) :=
    fun _ _ _ owns also => owns.owner_eq formed also
  have total := ReflTransGen.total_of_right_unique unique (reflTransGen_swap.mpr below)
    (reflTransGen_swap.mpr also)
  exact (total.imp reflTransGen_swap.mp reflTransGen_swap.mp).symm

/-- Two nodes linked below one owner have nothing in common below them. -/
theorem Owns.eq_of_common (formed : view.WellFormed) (owns : Owns view owner first)
    (also : Owns view owner second) (below : ReflTransGen (Owns view) first node)
    (alsoBelow : ReflTransGen (Owns view) second node) : first = second := by
  rcases below_or_below formed below alsoBelow with under | under
  · exact owns.eq_of_below formed also under
  · exact (also.eq_of_below formed owns under).symm

/-- What is above two nodes that part below an owner is not deeper than the owner. -/
theorem Owns.owner_eq_of_parts (formed : view.WellFormed) (owns : Owns view owner first)
    (also : Owns view owner second) (apart : first ≠ second)
    (underFirst : ReflTransGen (Owns view) first node)
    (underSecond : ReflTransGen (Owns view) second other) {upper : Node Home}
    (aboveNode : ReflTransGen (Owns view) upper node)
    (aboveOther : ReflTransGen (Owns view) upper other)
    (below : ReflTransGen (Owns view) owner upper) : owner = upper := by
  rcases ReflTransGen.cases_head below with same | ⟨next, nextOwned, below⟩
  · exact same
  · have onFirst := owns.eq_of_common formed nextOwned underFirst (below.trans aboveNode)
    have onSecond := also.eq_of_common formed nextOwned underSecond (below.trans aboveOther)
    exact absurd (onFirst.trans onSecond.symm) apart

/-! ## Nodes side by side -/

theorem mem_of_sublist_pair {α : Type} {first second : α} {members : List α}
    (listed : [first, second].Sublist members) : first ∈ members ∧ second ∈ members :=
  ⟨listed.subset List.mem_cons_self, listed.subset (List.mem_cons_of_mem _ List.mem_cons_self)⟩

theorem owns_of_sublist (listed : [first, second].Sublist (owner.links view)) :
    Owns view owner first ∧ Owns view owner second :=
  mem_of_sublist_pair listed

theorem ne_of_sublist (formed : view.WellFormed)
    (listed : [first, second].Sublist (owner.links view)) : first ≠ second := by
  rintro rfl
  exact List.not_nodup_pair _ (listed.nodup (nodup_links formed owner))

/-- A list without repetitions lists two members in one order only. -/
theorem not_sublist_swap {α : Type} {first second : α} {members : List α}
    (nodup : members.Nodup) (listed : [first, second].Sublist members) :
    ¬[second, first].Sublist members := by
  intro swapped
  induction members with
  | nil => cases listed
  | cons member members ih =>
      rw [List.nodup_cons] at nodup
      cases listed with
      | cons _ listed =>
          cases swapped with
          | cons _ swapped => exact ih nodup.2 listed swapped
          | cons_cons _ _ => exact nodup.1 (listed.subset (by simp))
      | cons_cons _ rest =>
          cases swapped with
          | cons _ swapped => exact nodup.1 (swapped.subset (by simp))
          | cons_cons _ _ => exact nodup.1 (rest.subset (by simp))

/-- Nodes that part below an owner are not below each other. -/
theorem not_below_of_parts (formed : view.WellFormed)
    (listed : [first, second].Sublist (owner.links view))
    (underFirst : ReflTransGen (Owns view) first node)
    (underSecond : ReflTransGen (Owns view) second other) :
    ¬ReflTransGen (Owns view) node other ∧ ¬ReflTransGen (Owns view) other node := by
  obtain ⟨owns, also⟩ := owns_of_sublist listed
  constructor
  · intro below
    exact ne_of_sublist formed listed
      (owns.eq_of_common formed also (underFirst.trans below) underSecond)
  · intro below
    exact ne_of_sublist formed listed
      (owns.eq_of_common formed also underFirst (underSecond.trans below))

/-! ## No two nodes precede each other -/

/-- **No two nodes precede each other.** -/
theorem Precedes.asymm (formed : view.WellFormed) (before : Precedes view node other) :
    ¬Precedes view other node := by
  intro after
  cases before with
  | above below =>
      cases after with
      | above under =>
          obtain ⟨next, owns, under⟩ := TransGen.head'_iff.mp (below.trans under)
          exact absurd (slot_le_of_below formed under) (Nat.not_le_of_gt (owns.parent? formed).2)
      | beside listed underLeft underRight =>
          exact (not_below_of_parts formed listed underLeft underRight).2 below.to_reflTransGen
  | @beside owner left right _ _ listed underLeft underRight =>
      cases after with
      | above under =>
          exact (not_below_of_parts formed listed underLeft underRight).2 under.to_reflTransGen
      | @beside owner' left' right' _ _ listed' underLeft' underRight' =>
          obtain ⟨owns, also⟩ := owns_of_sublist listed
          obtain ⟨owns', also'⟩ := owns_of_sublist listed'
          have same : owner = owner' := by
            rcases below_or_below formed (.head owns underLeft) (.head also' underRight') with
              under | under
            · exact owns.owner_eq_of_parts formed also (ne_of_sublist formed listed) underLeft
                underRight (.head also' underRight') (.head owns' underLeft') under
            · exact (owns'.owner_eq_of_parts formed also' (ne_of_sublist formed listed') underLeft'
                underRight' (.head also underRight) (.head owns underLeft) under).symm
          subst same
          obtain rfl := owns.eq_of_common formed also' underLeft underRight'
          obtain rfl := also.eq_of_common formed owns' underRight underLeft'
          exact not_sublist_swap (nodup_links formed owner) listed listed'

/-! ## Descendants -/

theorem mem_descendantsOrSelf_iff (formed : view.WellFormed) (inside : node.Exists view) :
    other ∈ node.descendantsOrSelf view ↔ ReflTransGen (HasChild view) node other := by
  constructor
  · obtain ⟨home, slot⟩ := node
    induction slot using (formed home).induction with
    | step slot ih =>
        intro member
        rw [Downward.descendantsOrSelf_eq formed inside, List.mem_cons, List.mem_flatMap] at member
        rcases member with rfl | ⟨child, listed, member⟩
        · exact .refl
        · obtain ⟨below, linked, rfl⟩ := List.mem_map.mp listed
          exact .head listed (ih below linked (exists_of_mem_children formed listed) member)
  · intro below
    induction below using ReflTransGen.head_induction_on with
    | refl =>
        rw [Downward.descendantsOrSelf_eq formed inside]
        exact List.mem_cons_self
    | @head node child listed _ ih =>
        rw [Downward.descendantsOrSelf_eq formed inside]
        exact List.mem_cons_of_mem _
          (List.mem_flatMap.mpr ⟨child, listed, ih (exists_of_mem_children formed listed)⟩)

theorem below_of_mem_descendantsOrSelf (formed : view.WellFormed) (inside : node.Exists view)
    (member : other ∈ node.descendantsOrSelf view) : ReflTransGen (Owns view) node other :=
  ReflTransGen.mono (fun _ _ => Owns.of_hasChild) _ _
    ((mem_descendantsOrSelf_iff formed inside).mp member)

/-- **A node and its descendants are listed in document order.** -/
theorem pairwise_descendantsOrSelf (formed : view.WellFormed) (inside : node.Exists view) :
    (node.descendantsOrSelf view).Pairwise (Precedes view) := by
  obtain ⟨home, slot⟩ := node
  induction slot using (formed home).induction with
  | step slot ih =>
      have exist : ∀ {child}, child ∈ children view ⟨home, slot⟩ → child.Exists view :=
        exists_of_mem_children formed
      rw [Downward.descendantsOrSelf_eq formed inside, List.pairwise_cons, List.pairwise_flatMap]
      refine ⟨?_, ?_, ?_⟩
      · intro other member
        obtain ⟨child, listed, member⟩ := List.mem_flatMap.mp member
        exact .above (.head' (.of_hasChild listed)
          (below_of_mem_descendantsOrSelf formed (exist listed) member))
      · intro child listed
        obtain ⟨below, linked, rfl⟩ := List.mem_map.mp listed
        exact ih below linked (exist listed)
      · rw [List.pairwise_iff_forall_sublist]
        intro left right listed first underLeft second underRight
        obtain ⟨leftListed, rightListed⟩ := mem_of_sublist_pair listed
        exact .beside (listed.trans (List.sublist_append_right _ _))
          (below_of_mem_descendantsOrSelf formed (exist leftListed) underLeft)
          (below_of_mem_descendantsOrSelf formed (exist rightListed) underRight)

end TreeQuery.Node
