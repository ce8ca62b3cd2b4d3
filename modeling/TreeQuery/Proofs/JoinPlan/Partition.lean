import TreeQuery.Proofs.JoinPlan.Rejections

/-!
# Groups as a partition

The groups divide the bindings of a clause among them (`Grouping.Partitions`): every binding is in
exactly one group, that of its parent if it has one, and the first member of a group is the only
one without a parent.  For this, parents have to come first, and the checks of sources see to it.
Where they do, the group of a parent is known before it is asked for (`foldlM_addWithin?`).

Only neighbours are compared to see whether a group is interrupted.  This is enough because a
binding without a parent opens a group with a greater number than all before it: where the group
of a binding is smaller than that of the one before, it has been opened earlier and was left
(`isContiguous_iff`).
-/

set_option autoImplicit false

namespace TreeQuery.JoinPlan

/-! ## Stretches of numbers -/

/-- The numbers below a bound that have a property form one stretch if every number between two
of them has it. -/
theorem filter_range_eq_range' {holds : Nat → Bool} {bound : Nat}
    (convex : ∀ {first middle last : Nat}, first ≤ middle → middle ≤ last → last < bound →
      holds first = true → holds last = true → holds middle = true) :
    ∃ start length, (List.range bound).filter holds = List.range' start length := by
  induction bound with
  | zero => exact ⟨0, 0, rfl⟩
  | succ bound ih =>
      obtain ⟨start, length, stretch⟩ := ih fun low high below =>
        convex low high (Nat.lt_succ_of_lt below)
      rw [List.range_succ, List.filter_append, stretch]
      cases last : holds bound with
      | false => exact ⟨start, length, by simp [last]⟩
      | true =>
          have single : [bound].filter holds = [bound] := by simp [last]
          rw [single]
          have mem_stretch : ∀ {number : Nat}, number ∈ List.range' start length ↔
              number < bound ∧ holds number = true := by
            intro number
            rw [← stretch, List.mem_filter, List.mem_range]
          cases length with
          | zero => exact ⟨bound, 1, rfl⟩
          | succ length =>
              -- the stretch so far reaches up to the bound, or its next number would belong to it
              obtain ⟨_, holdsStart⟩ :=
                mem_stretch.mp (List.mem_range'_1.mpr ⟨Nat.le_refl start, by omega⟩)
              obtain ⟨belowEnd, _⟩ := mem_stretch.mp
                (List.mem_range'_1.mpr ⟨Nat.le_add_right start length, by omega⟩)
              have ends : start + (length + 1) = bound := by
                refine Nat.le_antisymm belowEnd (Nat.le_of_not_lt fun short => ?_)
                have next : holds (start + (length + 1)) = true :=
                  convex (by omega) (Nat.le_of_lt short) (Nat.lt_succ_self bound) holdsStart last
                have inside := List.mem_range'_1.mp (mem_stretch.mpr ⟨short, next⟩)
                omega
              refine ⟨start, length + 1 + 1, ?_⟩
              rw [← ends]
              exact List.range'_1_concat.symm

namespace Grouping

variable {parents : List (Option Nat)} {binding group : Nat}

/-! ## Known groups -/

/-- Adds a binding, provided that the group of its parent is known. -/
def addWithin? (grouping : Grouping) : Option Nat → Option Grouping
  | none => some (grouping.add none)
  | some parent =>
      grouping.groupOf[parent]?.map fun group =>
        ⟨grouping.groupOf ++ [group], grouping.count⟩

theorem addWithin?_some {grouping : Grouping} {parent : Nat}
    (known : parent < grouping.groupOf.length) :
    grouping.addWithin? (some parent) = some (grouping.add (some parent)) := by
  rw [addWithin?, List.getElem?_eq_getElem known, Option.map_some, add, Grouping.group,
    List.getD_eq_getElem?_getD, List.getElem?_eq_getElem known, Option.getD_some]

/-- **The group of a parent is known when a binding is added.** -/
theorem foldlM_addWithin? (earlier : Earlier parents) :
    parents.foldlM addWithin? ⟨[], 0⟩ = some (ofParents parents) := by
  induction parents using List.reverseRecOn with
  | nil => rfl
  | append_singleton parents last ih =>
      rw [List.foldlM_append, ih earlier.of_append, ofParents_append_singleton]
      show (ofParents parents).addWithin? last >>= pure = _
      rw [bind_pure]
      cases last with
      | none => rfl
      | some parent =>
          have before : parent < parents.length := earlier parents.length parent (by simp)
          exact addWithin?_some (by rwa [length_groupOf])

/-! ## Members -/

theorem mem_members_ofParents :
    binding ∈ (ofParents parents).members group ↔
      binding < parents.length ∧ (ofParents parents).group binding = group := by
  rw [mem_members, length_groupOf]

theorem pairwise_members (grouping : Grouping) (group : Nat) :
    (grouping.members group).Pairwise (· < ·) :=
  List.pairwise_lt_range.filter _

/-- **The groups divide the bindings among them.**  Every group lists its members in order, each
binding is a member of one of the groups and of no other, and it is one where its parent is; and
the first member of a group has no parent, but all others have. -/
structure Partitions (grouping : Grouping) (parents : List (Option Nat)) : Prop where
  ordered : ∀ group, (grouping.members group).Pairwise (· < ·)
  inside : ∀ group, ∀ binding ∈ grouping.members group, binding < parents.length
  covered : ∀ binding < parents.length, ∃ group < grouping.count,
    binding ∈ grouping.members group
  disjoint : ∀ group other, group ≠ other →
    List.Disjoint (grouping.members group) (grouping.members other)
  withParent : ∀ binding parent group, parents[binding]? = some (some parent) →
    (binding ∈ grouping.members group ↔ parent ∈ grouping.members group)
  root : ∀ group < grouping.count, ∃ root others, grouping.members group = root :: others ∧
    parents[root]? = some none ∧ ∀ other ∈ others, parents[other]? ≠ some none

/-- The first member of a group is its only root. -/
theorem exists_root (earlier : Earlier parents) (opened : group < (ofParents parents).count) :
    ∃ root others, (ofParents parents).members group = root :: others ∧
      parents[root]? = some none ∧ ∀ other ∈ others, parents[other]? ≠ some none := by
  obtain ⟨binding, inside, same⟩ := exists_group_eq opened
  have member : binding ∈ (ofParents parents).members group :=
    mem_members_ofParents.mpr ⟨inside, same⟩
  cases members : (ofParents parents).members group with
  | nil =>
      rw [members] at member
      cases member
  | cons root others =>
      have ordered := pairwise_members (ofParents parents) group
      rw [members, List.pairwise_cons] at ordered
      obtain ⟨rootInside, rootGroup⟩ := mem_members_ofParents.mp
        (show root ∈ (ofParents parents).members group from members ▸ List.mem_cons_self)
      have isRoot : parents[root]? = some none := by
        rw [List.getElem?_eq_getElem rootInside, Option.some.injEq]
        cases linked : parents[root] with
        | none => rfl
        | some parent =>
            -- the parent would be an earlier member of the group
            have found : parents[root]? = some (some parent) := by
              rw [List.getElem?_eq_getElem rootInside, linked]
            have before := earlier root parent found
            have parentMember : parent ∈ (ofParents parents).members group :=
              mem_members_ofParents.mpr ⟨Nat.lt_trans before rootInside,
                (group_ofParents earlier found).symm.trans rootGroup⟩
            rw [members] at parentMember
            rcases List.mem_cons.mp parentMember with rfl | later
            · exact absurd before (Nat.lt_irrefl _)
            · exact absurd (ordered.1 parent later) (Nat.lt_asymm before)
      refine ⟨root, others, rfl, isRoot, fun other listed opens => ?_⟩
      have otherGroup := (mem_members_ofParents.mp
        (show other ∈ (ofParents parents).members group from
          members ▸ List.mem_cons_of_mem root listed)).2
      have apart := group_lt_of_root earlier opens (ordered.1 other listed)
      rw [rootGroup, otherGroup] at apart
      exact absurd apart (Nat.lt_irrefl _)

/-- **Where parents come first, the groups divide the bindings among them.** -/
theorem partitions_ofParents (earlier : Earlier parents) :
    (ofParents parents).Partitions parents where
  ordered := pairwise_members _
  inside _ _ member := (mem_members_ofParents.mp member).1
  covered binding inside :=
    ⟨_, group_lt_count earlier inside, mem_members_ofParents.mpr ⟨inside, rfl⟩⟩
  disjoint group other apart binding member memberToo :=
    apart ((mem_members_ofParents.mp member).2.symm.trans (mem_members_ofParents.mp memberToo).2)
  withParent binding parent group linked := by
    have inside := (List.getElem?_eq_some_iff.mp linked).1
    have insideToo := Nat.lt_trans (earlier binding parent linked) inside
    rw [mem_members_ofParents, mem_members_ofParents, group_ofParents earlier linked]
    simp only [inside, insideToo, true_and]
  root _ opened := exists_root earlier opened

/-! ## Interruptions -/

theorem isContiguous_of_le {grouping : Grouping}
    (ascends : ∀ binding, binding + 1 < grouping.groupOf.length →
      grouping.group binding ≤ grouping.group (binding + 1)) :
    grouping.isContiguous = true := by
  rw [isContiguous, List.all_eq_true]
  intro neighbours member
  obtain ⟨binding, inside, rfl⟩ := List.mem_iff_getElem.mp member
  rw [List.length_zip, List.length_tail] at inside
  have next : binding + 1 < grouping.groupOf.length := by omega
  have le := ascends binding next
  rw [Grouping.group, Grouping.group, List.getD_eq_getElem?_getD, List.getD_eq_getElem?_getD,
    List.getElem?_eq_getElem next, List.getElem?_eq_getElem (Nat.lt_of_succ_lt next)] at le
  rw [List.getElem_zip, List.getElem_tail]
  exact decide_eq_true le

/-- **No group is interrupted exactly if the members of each are consecutive.** -/
theorem isContiguous_iff (earlier : Earlier parents) :
    (ofParents parents).isContiguous = true ↔
      ∀ group < (ofParents parents).count, ∃ first length,
        (ofParents parents).members group = List.range' first length := by
  constructor
  · intro contiguous group _
    refine filter_range_eq_range' fun {first middle last} low high below inFirst inLast => ?_
    have fromFirst := group_le_group contiguous low (Nat.lt_of_le_of_lt high below)
    have toLast := group_le_group contiguous high below
    rw [decide_eq_true_iff] at inFirst inLast ⊢
    omega
  · intro consecutive
    refine isContiguous_of_le fun binding inside => Nat.le_of_not_lt fun falls => ?_
    rw [length_groupOf] at inside
    have opened := group_lt_count earlier inside
    obtain ⟨root, others, members, isRoot, _⟩ := exists_root earlier opened
    obtain ⟨first, length, stretch⟩ := consecutive _ opened
    have mem_stretch : ∀ {member : Nat}, member ∈ (ofParents parents).members
        ((ofParents parents).group (binding + 1)) ↔ first ≤ member ∧ member < first + length := by
      intro member
      rw [stretch, List.mem_range'_1]
    have isFirst : root = first := by
      cases length with
      | zero => simp [members] at stretch
      | succ length =>
          rw [members, List.range'_succ] at stretch
          exact (List.cons.inj stretch).1
    obtain ⟨low, high⟩ := mem_stretch.mp (mem_members_ofParents.mpr ⟨inside, rfl⟩)
    rcases Nat.lt_or_eq_of_le low with before | same
    · -- the binding before is not the first of the stretch, so it is a member of it
      have member := mem_stretch.mpr ⟨Nat.le_of_lt_succ before, Nat.lt_of_succ_lt high⟩
      exact Nat.ne_of_gt falls (mem_members_ofParents.mp member).2
    · -- the second of the two opens its group, which comes last
      rw [isFirst, same] at isRoot
      exact Nat.lt_asymm falls (group_lt_of_root earlier isRoot (Nat.lt_succ_self binding))

/-! ## Plans -/

/-- **The groups of a clause partition it.**  The checks of sources name earlier bindings only as
parents; and whenever parents come first, the group of a parent is known as soon as it is asked
for, the groups divide the bindings among them, they count as uninterrupted exactly if the members
of each are consecutive, and if a plan is made of them, the members of one group after the other
are all bindings in order. -/
theorem ofParents_isPartition :
    (∀ (flwr : Flwr) (parents : List (Option Nat)), checkSources flwr = .ok parents →
      parents.length = flwr.bindings.length ∧ Earlier parents) ∧
    ∀ parents : List (Option Nat), Earlier parents →
      parents.foldlM addWithin? ⟨[], 0⟩ = some (ofParents parents) ∧
      (ofParents parents).Partitions parents ∧
      ((ofParents parents).isContiguous = true ↔
        ∀ group < (ofParents parents).count, ∃ first length,
          (ofParents parents).members group = List.range' first length) ∧
      ∀ grouping : Grouping, planGroups parents = .ok grouping →
        (List.range grouping.count).flatMap grouping.members = List.range parents.length := by
  constructor
  · intro flwr parents planned
    obtain ⟨_, areParents⟩ := checkSources_ok planned
    exact ⟨areParents.length, areParents.earlier⟩
  · intro parents earlier
    refine ⟨foldlM_addWithin? earlier, partitions_ofParents earlier, isContiguous_iff earlier, ?_⟩
    intro grouping planned
    obtain ⟨rfl, _, contiguous⟩ := planGroups_ok planned
    exact flatMap_members earlier contiguous

/-- The clause `for $a in doc("f")/a, $b in $a/b, $c in $o/c, $d in $c//d` has two groups, one
behind the other; with a fifth binding `$e in $b/e` the first is interrupted by the second. -/
theorem ofParents_isPartition_twoGroups :
    let bindings : List Binding :=
      [⟨"a", .document ⟨"f", .child, .tag "a"⟩⟩, ⟨"b", .step (.reference "a") .child (.tag "b")⟩,
        ⟨"c", .step (.reference "o") .child (.tag "c")⟩,
        ⟨"d", .step (.reference "c") .descendantOrSelf (.tag "d")⟩]
    let fifth : Binding := ⟨"e", .step (.reference "b") .child (.tag "e")⟩
    let parents := [none, some 0, none, some 2]
    let interrupted := [none, some 0, none, some 2, some 1]
    checkSources ⟨bindings, [], none, .reference "a"⟩ = .ok parents ∧
      checkSources ⟨bindings ++ [fifth], [], none, .reference "a"⟩ = .ok interrupted ∧
      planGroups parents = .ok ⟨[0, 0, 1, 1], 2⟩ ∧
      (List.range 2).flatMap (members ⟨[0, 0, 1, 1], 2⟩) = List.range 4 ∧
      (ofParents interrupted).Partitions interrupted ∧
      (ofParents interrupted).members 0 = [0, 1, 4] ∧
      ¬ ∃ first length, (ofParents interrupted).members 0 = List.range' first length := by
  intro bindings fifth parents interrupted
  obtain ⟨checks, groups⟩ := ofParents_isPartition
  have checked : checkSources ⟨bindings, [], none, .reference "a"⟩ = .ok parents := by rfl
  have checkedToo : checkSources ⟨bindings ++ [fifth], [], none, .reference "a"⟩ =
      .ok interrupted := by rfl
  have planned : planGroups parents = .ok ⟨[0, 0, 1, 1], 2⟩ := by rfl
  obtain ⟨_, _, _, inOrder⟩ := groups parents (checks _ _ checked).2
  obtain ⟨_, partitions, contiguous, _⟩ := groups interrupted (checks _ _ checkedToo).2
  refine ⟨checked, checkedToo, planned, inOrder _ planned, partitions, by rfl, fun stretch => ?_⟩
  have secondStretch : ∃ first length, (ofParents interrupted).members 1 =
      List.range' first length := ⟨2, 2, by rfl⟩
  have notContiguous : (ofParents interrupted).isContiguous = false := by rfl
  rw [contiguous.mpr fun group opened => ?_] at notContiguous
  · cases notContiguous
  · rcases Nat.lt_succ_iff_lt_or_eq.mp opened with first | rfl
    · rwa [Nat.lt_one_iff.mp first]
    · exact secondStretch

end Grouping

end TreeQuery.JoinPlan
