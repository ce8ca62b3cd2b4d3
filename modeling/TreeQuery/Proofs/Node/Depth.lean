import Mathlib.Data.List.Sort
import TreeQuery.Proofs.Document.Numbering
import TreeQuery.Proofs.Node.Order

/-!
# Slots and depths

In a numbered arena one node precedes another in document order exactly if its slot is the smaller
one (`Node.precedes_iff`).  The depth of a node is the number of owners above it.  Of two nodes at
one depth neither is below the other, so all links of the first lead to smaller slots than all links
of the second (`Node.link_lt_of_atDepth`), and the owner of the first is not the later one
(`Node.owner_le_of_atDepth`).
-/

set_option autoImplicit false

namespace TreeQuery.Node

open Relation

variable {Home : Type} {view : View Home} {node other owner first second : Node Home}

/-! ## Owners -/

theorem links_eq (node : Node Home) :
    node.links view = ((view node.home).links node.slot).map node.sibling := by
  rw [links, attributes, children, Arena.links, List.map_append]
  rfl

theorem owns_of_parent (formed : view.WellFormed) {home : Home} {slot upper : Nat}
    (linked : ((view home).record slot).parent = some upper) :
    Owns view ⟨home, upper⟩ ⟨home, slot⟩ := by
  rw [Owns, links_eq]
  exact List.mem_map.mpr ⟨slot, (formed home).mem_links_iff.mpr linked, rfl⟩

theorem owns_iff (formed : view.WellFormed) :
    Owns view owner node ↔ node.parent? view = some owner := by
  constructor
  · intro owns
    exact (owns.parent? formed).1
  · intro linked
    rw [parent?, Option.map_eq_some_iff] at linked
    obtain ⟨slot, linked, rfl⟩ := linked
    exact owns_of_parent formed linked

theorem Owns.home_eq (owns : Owns view owner node) : node.home = owner.home := by
  rw [Owns, links_eq] at owns
  obtain ⟨slot, _, rfl⟩ := List.mem_map.mp owns
  rfl

theorem Owns.exists (formed : view.WellFormed) (owns : Owns view owner node) :
    node.Exists view := by
  rw [Owns, links_eq] at owns
  obtain ⟨slot, listed, rfl⟩ := List.mem_map.mp owns
  exact ((formed owner.home).links_lt listed).2

theorem Owns.exists_owner (formed : view.WellFormed) (owns : Owns view owner node) :
    owner.Exists view :=
  exists_of_parent? formed (owns.exists formed) (owns.parent? formed).1

/-! ## Document order in a numbered arena -/

/-- What precedes a node precedes everything below it. -/
theorem Precedes.tail (before : Precedes view first node) (owns : Owns view node second) :
    Precedes view first second := by
  cases before with
  | above below => exact .above (below.tail owns)
  | beside listed underFirst underNode => exact .beside listed underFirst (underNode.tail owns)

/-- Two slots linked below one node are linked in the order of their numbers. -/
theorem sublist_links (numbered : (view owner.home).Numbered) (owns : Owns view owner first)
    (also : Owns view owner second) (smaller : first.slot < second.slot) :
    [first, second].Sublist (owner.links view) := by
  rw [Owns, links_eq] at owns also
  obtain ⟨slot, listed, rfl⟩ := List.mem_map.mp owns
  obtain ⟨other, listedToo, rfl⟩ := List.mem_map.mp also
  have members : [slot, other].Subperm ((view owner.home).links owner.slot) := by
    have apart : slot ≠ other := Nat.ne_of_lt smaller
    refine List.Nodup.subperm (by simpa using apart) ?_
    intro link member
    rcases List.mem_pair.mp member with rfl | rfl
    · exact listed
    · exact listedToo
  have ordered : [slot, other].Sublist ((view owner.home).links owner.slot) :=
    List.sublist_of_subperm_of_pairwise members (List.pairwise_pair.mpr smaller)
      (numbered.ascending _)
  rw [links_eq]
  exact ordered.map owner.sibling

variable {home : Home}

/-- A slot between a node and one linked below it is below an earlier link of that node. -/
theorem exists_link_above (formed : view.WellFormed) (numbered : (view home).Numbered)
    {slot upper : Nat} (linked : ((view home).record slot).parent = some upper)
    (inside : slot < (view home).size) :
    ∀ between, upper < between → between < slot → ∃ link ≤ between,
      Owns view ⟨home, upper⟩ ⟨home, link⟩ ∧
        ReflTransGen (Owns view) ⟨home, link⟩ ⟨home, between⟩ := by
  intro between
  induction between using Nat.strongRecOn with
  | ind between ih =>
      intro later earlier
      obtain ⟨owner, linkedBetween⟩ :=
        numbered.linked (Nat.zero_lt_of_lt later) (Nat.lt_trans earlier inside)
      have owns := owns_of_parent formed linkedBetween
      have above := (owns.parent? formed).2
      rcases Nat.eq_or_lt_of_le (numbered.nested linked later earlier linkedBetween) with
        rfl | deeper
      · exact ⟨between, Nat.le_refl _, owns, .refl⟩
      · obtain ⟨link, bounded, listed, below⟩ :=
          ih owner above deeper (Nat.lt_trans above earlier)
        exact ⟨link, Nat.le_trans bounded (Nat.le_of_lt above), listed, below.tail owns⟩

/-- A smaller slot comes earlier in document order. -/
theorem precedes_of_slot_lt (formed : view.WellFormed) (numbered : (view home).Numbered)
    {first : Nat} : ∀ second, second < (view home).size → first < second →
      Precedes view ⟨home, first⟩ ⟨home, second⟩ := by
  intro second
  induction second using Nat.strongRecOn with
  | ind second ih =>
      intro inside smaller
      obtain ⟨owner, linked⟩ := numbered.linked (Nat.zero_lt_of_lt smaller) inside
      have owns := owns_of_parent formed linked
      have above := (owns.parent? formed).2
      rcases Nat.lt_trichotomy owner first with before | rfl | after
      · obtain ⟨link, bounded, listed, below⟩ :=
          exists_link_above formed numbered linked inside first before smaller
        exact .beside (sublist_links numbered listed owns (Nat.lt_of_le_of_lt bounded smaller))
          below .refl
      · exact .above (.single owns)
      · exact (ih owner above (Nat.lt_trans above inside) after).tail owns

/-- **In a numbered arena, document order is the order of slots.** -/
theorem precedes_iff (formed : view.WellFormed) (numbered : (view home).Numbered)
    (isHome : first.home = home) (isHomeToo : second.home = home)
    (inside : first.Exists view) (insideToo : second.Exists view) :
    Precedes view first second ↔ first.slot < second.slot := by
  obtain ⟨_, slot⟩ := first
  obtain ⟨_, other⟩ := second
  subst isHome
  obtain rfl : _ = _ := isHomeToo
  constructor
  · intro before
    rcases Nat.lt_trichotomy slot other with smaller | rfl | greater
    · exact smaller
    · exact absurd before (before.asymm formed)
    · exact absurd before ((precedes_of_slot_lt formed numbered slot inside greater).asymm formed)
  · exact precedes_of_slot_lt formed numbered other insideToo

/-! ## Depths -/

/-- A node with as many owners above it as given. -/
inductive AtDepth (view : View Home) : Nat → Node Home → Prop where
  | top {node : Node Home} (alone : node.parent? view = none) : AtDepth view 0 node
  | linked {depth : Nat} {owner node : Node Home} (above : AtDepth view depth owner)
      (owns : Owns view owner node) : AtDepth view (depth + 1) node

theorem exists_atDepth (formed : view.WellFormed) (node : Node Home) :
    ∃ depth, AtDepth view depth node := by
  generalize bound : node.slot = slot
  induction slot using Nat.strongRecOn generalizing node with
  | ind slot ih =>
      cases linked : node.parent? view with
      | none => exact ⟨0, .top linked⟩
      | some owner =>
          have owns := (owns_iff formed).mpr linked
          obtain ⟨depth, above⟩ := ih _ (bound ▸ (owns.parent? formed).2) owner rfl
          exact ⟨depth + 1, .linked above owns⟩

namespace AtDepth

variable {depth also : Nat}

theorem unique (formed : view.WellFormed) (atDepth : AtDepth view depth node) :
    AtDepth view also node → depth = also := by
  induction atDepth generalizing also with
  | top alone =>
      rintro (_ | ⟨_, owns⟩)
      · rfl
      · rw [(owns.parent? formed).1] at alone
        cases alone
  | linked _ owns ih =>
      rintro (alone | ⟨above, ownsToo⟩)
      · rw [(owns.parent? formed).1] at alone
        cases alone
      · rw [← owns.owner_eq formed ownsToo] at above
        rw [ih above]

/-- The owner of a node is at the depth before. -/
theorem of_owns (formed : view.WellFormed) (atDepth : AtDepth view depth node)
    (owns : Owns view owner node) : ∃ above, depth = above + 1 ∧ AtDepth view above owner := by
  obtain ⟨above, atDepthOwner⟩ := exists_atDepth formed owner
  exact ⟨above, atDepth.unique formed (.linked atDepthOwner owns), atDepthOwner⟩

/-- What is below a node is deeper. -/
theorem lt_of_below (formed : view.WellFormed) (atDepth : AtDepth view depth node)
    (below : TransGen (Owns view) node other) (atDepthToo : AtDepth view also other) :
    depth < also := by
  induction below generalizing also with
  | single owns =>
      obtain ⟨above, rfl, atDepthOwner⟩ := atDepthToo.of_owns formed owns
      rw [atDepth.unique formed atDepthOwner]
      exact Nat.lt_succ_self _
  | tail _ owns ih =>
      obtain ⟨above, rfl, atDepthOwner⟩ := atDepthToo.of_owns formed owns
      exact Nat.lt_succ_of_lt (ih atDepthOwner)

end AtDepth

/-- **Of two nodes at one depth, everything linked below the first comes before everything linked
below the second.** -/
theorem link_lt_of_atDepth (formed : view.WellFormed) (numbered : (view home).Numbered)
    {depth : Nat} (isHome : first.home = home) (isHomeToo : second.home = home)
    (atDepth : AtDepth view depth first) (atDepthToo : AtDepth view depth second)
    (smaller : first.slot < second.slot) (owns : Owns view first node)
    (also : Owns view second other) : node.slot < other.slot := by
  have before := (precedes_iff formed numbered isHome isHomeToo (owns.exists_owner formed)
    (also.exists_owner formed)).mpr smaller
  refine (precedes_iff formed numbered (owns.home_eq.trans isHome) (also.home_eq.trans isHomeToo)
    (owns.exists formed) (also.exists formed)).mp ?_
  cases before with
  | above below => exact absurd (atDepth.lt_of_below formed below atDepthToo) (Nat.lt_irrefl _)
  | beside listed underFirst underSecond =>
      exact .beside listed (underFirst.tail owns) (underSecond.tail also)

/-- Of two nodes at one depth, the owner of the first is not the later one. -/
theorem owner_le_of_atDepth (formed : view.WellFormed) (numbered : (view home).Numbered)
    {depth : Nat} (isHome : node.home = home) (isHomeToo : other.home = home)
    (atDepth : AtDepth view depth node) (atDepthToo : AtDepth view depth other)
    (smaller : node.slot < other.slot) (owns : Owns view first node)
    (also : Owns view second other) : first.slot ≤ second.slot := by
  by_contra greater
  obtain ⟨above, rfl, atDepthFirst⟩ := atDepth.of_owns formed owns
  obtain ⟨_, same, atDepthSecond⟩ := atDepthToo.of_owns formed also
  cases same
  have swapped := link_lt_of_atDepth formed numbered (also.home_eq.symm.trans isHomeToo)
    (owns.home_eq.symm.trans isHome) atDepthSecond atDepthFirst (Nat.lt_of_not_le greater) also owns
  exact Nat.lt_asymm smaller swapped

end TreeQuery.Node
