import Mathlib.Data.List.Basic
import Mathlib.Data.List.Induction
import TreeQuery.JoinPlan.Grouping

/-!
# Groups of bindings

The groups of a plan cut the list of bindings into consecutive pieces: a binding whose
source is a path off an earlier variable is in the group of that variable
(`group_ofParents`), and as no group is interrupted, the members of one group after the
other are all bindings in order (`flatMap_members`).
-/

set_option autoImplicit false

namespace TreeQuery.JoinPlan

/-! ## Lists sorted by a key -/

/-- A list that is sorted by a key consists of the members with the first key, those with
the second, and so on. -/
theorem flatMap_filter_eq {α : Type} {key : α → Nat} {count : Nat} {members : List α}
    (sorted : members.Pairwise (key · ≤ key ·)) (bounded : ∀ member ∈ members, key member < count) :
    (List.range count).flatMap (fun value => members.filter (key · = value)) = members := by
  induction count generalizing members with
  | zero =>
      cases members with
      | nil => rfl
      | cons first rest => exact absurd (bounded first List.mem_cons_self) (Nat.not_lt_zero _)
  | succ count ih =>
      have below := ih (sorted.filter (key · < count)) fun member listed =>
        of_decide_eq_true (List.mem_filter.mp listed).2
      have early : (List.range count).flatMap (fun value => members.filter (key · = value)) =
          members.filter (key · < count) := by
        rw [← below]
        refine List.flatMap_congr fun value member => ?_
        rw [List.filter_filter]
        refine List.filter_congr fun other _ => ?_
        have := List.mem_range.mp member
        by_cases same : key other = value
        · simp [same, this]
        · simp [same]
      rw [List.range_succ, List.flatMap_append, early, List.flatMap_singleton]
      clear ih below early
      induction members with
      | nil => rfl
      | cons first rest ih =>
          obtain ⟨le, tail⟩ := List.pairwise_cons.mp sorted
          have restBounded := fun member listed =>
            bounded member (List.mem_cons_of_mem first listed)
          by_cases last : key first = count
          · have noneBelow : rest.filter (key · < count) = [] := by
              refine List.filter_eq_nil_iff.mpr fun other member => ?_
              have := le other member
              simp [last] at this
              simpa using this
            have allLast : rest.filter (key · = count) = rest := by
              refine List.filter_eq_self.mpr fun other member => ?_
              have := le other member
              have := restBounded other member
              exact decide_eq_true (by omega)
            simp [last, noneBelow, allLast]
          · have isBelow : key first < count := by
              have := bounded first List.mem_cons_self
              omega
            simpa [last, isBelow] using ih tail restBounded

/-! ## Groups -/

namespace Grouping

variable {parents : List (Option Nat)} {binding parent : Nat}

/-- Every binding that has a parent has an earlier one. -/
def Earlier (parents : List (Option Nat)) : Prop :=
  ∀ binding parent : Nat, parents[binding]? = some (some parent) → parent < binding

theorem Earlier.of_append {others : List (Option Nat)} (earlier : Earlier (parents ++ others)) :
    Earlier parents := fun binding parent linked => earlier binding parent (by
  rw [List.getElem?_append_left (List.getElem?_eq_some_iff.mp linked).1, linked])

theorem ofParents_append_singleton (parents : List (Option Nat)) (last : Option Nat) :
    ofParents (parents ++ [last]) = (ofParents parents).add last := by
  rw [ofParents, ofParents, List.foldl_append, List.foldl_cons, List.foldl_nil]

theorem length_groupOf (parents : List (Option Nat)) :
    (ofParents parents).groupOf.length = parents.length := by
  induction parents using List.reverseRecOn with
  | nil => rfl
  | append_singleton parents last ih =>
      rw [ofParents_append_singleton]
      cases last <;> simp [add, ih]

/-- Adding a binding does not regroup those before it. -/
theorem group_append_singleton (last : Option Nat) (before : binding < parents.length) :
    (ofParents (parents ++ [last])).group binding = (ofParents parents).group binding := by
  rw [← length_groupOf] at before
  rw [ofParents_append_singleton, group, group]
  cases last <;> simp [add, List.getD_eq_getElem?_getD, List.getElem?_append_left before]

theorem group_last (parents : List (Option Nat)) (last : Option Nat) :
    (ofParents (parents ++ [last])).group parents.length =
      match last with
      | none => (ofParents parents).count
      | some parent => (ofParents parents).group parent := by
  rw [ofParents_append_singleton, group, ← length_groupOf parents]
  cases last <;> simp [add, List.getD_eq_getElem?_getD]

theorem count_append_singleton (parents : List (Option Nat)) (last : Option Nat) :
    (ofParents parents).count ≤ (ofParents (parents ++ [last])).count := by
  rw [ofParents_append_singleton]
  cases last <;> simp [add]

/-- Every binding is in one of the groups. -/
theorem group_lt_count (earlier : Earlier parents) (inside : binding < parents.length) :
    (ofParents parents).group binding < (ofParents parents).count := by
  induction parents using List.reverseRecOn generalizing binding with
  | nil => exact absurd inside (Nat.not_lt_zero _)
  | append_singleton parents last ih =>
      have earlierBefore := earlier.of_append
      by_cases before : binding < parents.length
      · rw [group_append_singleton last before]
        exact Nat.lt_of_lt_of_le (ih earlierBefore before) (count_append_singleton _ _)
      · rw [List.length_append, List.length_singleton] at inside
        obtain rfl : binding = parents.length := by omega
        rw [group_last]
        cases last with
        | none =>
            rw [ofParents_append_singleton, add]
            exact Nat.lt_succ_self _
        | some parent =>
            have inside := earlier parents.length parent (by simp)
            exact Nat.lt_of_lt_of_le (ih earlierBefore inside) (count_append_singleton _ _)

/-- **A binding is in the group of the binding that its source is a path off.** -/
theorem group_ofParents (earlier : Earlier parents)
    (linked : parents[binding]? = some (some parent)) :
    (ofParents parents).group binding = (ofParents parents).group parent := by
  induction parents using List.reverseRecOn with
  | nil => exact nomatch linked
  | append_singleton parents last ih =>
      have above := earlier binding parent linked
      by_cases before : binding < parents.length
      · rw [List.getElem?_append_left before] at linked
        rw [group_append_singleton last before,
          group_append_singleton last (Nat.lt_trans above before)]
        exact ih earlier.of_append linked
      · have inside := (List.getElem?_eq_some_iff.mp linked).1
        rw [List.length_append, List.length_singleton] at inside
        obtain rfl : binding = parents.length := by omega
        rw [List.getElem?_append_right (Nat.le_refl _), Nat.sub_self, List.getElem?_cons_zero,
          Option.some.injEq] at linked
        rw [group_last, linked, group_append_singleton _ above]

/-- A binding without a parent opens a group, so all bindings before it are in earlier ones. -/
theorem group_lt_of_root (earlier : Earlier parents) (root : parents[binding]? = some none)
    {before : Nat} (above : before < binding) :
    (ofParents parents).group before < (ofParents parents).group binding := by
  induction parents using List.reverseRecOn with
  | nil => exact nomatch root
  | append_singleton parents last ih =>
      have inside := (List.getElem?_eq_some_iff.mp root).1
      rw [List.length_append, List.length_singleton] at inside
      rw [group_append_singleton last (show before < parents.length by omega)]
      by_cases old : binding < parents.length
      · rw [List.getElem?_append_left old] at root
        rw [group_append_singleton last old]
        exact ih earlier.of_append root
      · obtain rfl : binding = parents.length := by omega
        rw [List.getElem?_append_right (Nat.le_refl _), Nat.sub_self, List.getElem?_cons_zero,
          Option.some.injEq] at root
        rw [group_last, root]
        exact group_lt_count earlier.of_append above

/-- The groups of bindings in order do not decrease if no group is interrupted. -/
theorem pairwise_groupOf {grouping : Grouping} (contiguous : grouping.isContiguous = true) :
    grouping.groupOf.Pairwise (· ≤ ·) := by
  obtain ⟨groups, count⟩ := grouping
  rw [isContiguous] at contiguous
  dsimp only at contiguous ⊢
  rw [← List.isChain_iff_pairwise]
  induction groups with
  | nil => exact .nil
  | cons first rest ih =>
      cases rest with
      | nil => exact .singleton _
      | cons second rest =>
          rw [List.tail_cons, List.zip_cons_cons, List.all_cons, Bool.and_eq_true] at contiguous
          exact .cons_cons (of_decide_eq_true contiguous.1) (ih contiguous.2)

theorem group_le_group {grouping : Grouping} (contiguous : grouping.isContiguous = true)
    {later : Nat} (le : binding ≤ later) (inside : later < grouping.groupOf.length) :
    grouping.group binding ≤ grouping.group later := by
  have before : binding < grouping.groupOf.length := Nat.lt_of_le_of_lt le inside
  rw [group, group, List.getD_eq_getElem?_getD, List.getD_eq_getElem?_getD,
    List.getElem?_eq_getElem inside, List.getElem?_eq_getElem before]
  rcases Nat.eq_or_lt_of_le le with rfl | lt
  · exact Nat.le_refl _
  · exact List.pairwise_iff_getElem.mp (pairwise_groupOf contiguous) _ _ before inside lt

/-- **The members of one group after the other are all bindings.** -/
theorem flatMap_members (earlier : Earlier parents)
    (contiguous : (ofParents parents).isContiguous = true) :
    (List.range (ofParents parents).count).flatMap (ofParents parents).members =
      List.range parents.length := by
  rw [← length_groupOf parents]
  refine flatMap_filter_eq ?_ fun binding member => ?_
  · refine List.pairwise_iff_getElem.mpr fun i j inside inside' before => ?_
    rw [List.getElem_range, List.getElem_range]
    rw [List.length_range] at inside'
    exact group_le_group contiguous (Nat.le_of_lt before) inside'
  · rw [List.mem_range, length_groupOf] at member
    exact group_lt_count earlier member

end Grouping

end TreeQuery.JoinPlan
