import Mathlib.Data.List.Flatten
import TreeQuery.Proofs.Node.Depth
import TreeQuery.Proofs.Path.Regrouping
import TreeQuery.Query.Join

/-!
# Paths that keep document order

A path that goes neither to all descendants nor two ways at once reaches nodes in document order
and each of them once, if it starts from a single node of a document (`Path.select_inOrder`).  What
it reaches at any moment is a tier: nodes of one depth with ascending slots.  A step to children or
attributes leads from one tier to the next, since the subtrees of a tier lie one behind the other,
and a step to parents leads back to the one before, where repeated owners stand side by side.
Filters only leave nodes out, whatever they ask.
-/

set_option autoImplicit false

namespace TreeQuery

variable {Home : Type} {view : View Home} {home : Home} {depth : Nat}
  {nodes others : List (Node Home)}

/-- Nodes of one document and of one depth, in the order of their slots. -/
structure Tier (view : View Home) (home : Home) (depth : Nat) (nodes : List (Node Home)) :
    Prop where
  home : ∀ node ∈ nodes, node.home = home
  exist : ∀ node ∈ nodes, node.Exists view
  atDepth : ∀ node ∈ nodes, node.AtDepth view depth
  ascending : nodes.Pairwise (·.slot < ·.slot)

namespace Tier

theorem sublist (tier : Tier view home depth nodes) (fewer : others.Sublist nodes) :
    Tier view home depth others where
  home node member := tier.home node (fewer.subset member)
  exist node member := tier.exist node (fewer.subset member)
  atDepth node member := tier.atDepth node (fewer.subset member)
  ascending := tier.ascending.sublist fewer

/-- What is linked below a tier is the next tier. -/
theorem links (formed : view.WellFormed) (numbered : (view home).Numbered)
    (tier : Tier view home depth nodes) :
    Tier view home (depth + 1) (nodes.flatMap (·.links view)) where
  home := by
    intro node member
    obtain ⟨owner, listed, owns⟩ := List.mem_flatMap.mp member
    exact (Node.Owns.home_eq owns).trans (tier.home owner listed)
  exist := by
    intro node member
    obtain ⟨owner, _, owns⟩ := List.mem_flatMap.mp member
    exact Node.Owns.exists formed owns
  atDepth := by
    intro node member
    obtain ⟨owner, listed, owns⟩ := List.mem_flatMap.mp member
    exact .linked (tier.atDepth owner listed) owns
  ascending := by
    rw [List.pairwise_flatMap]
    constructor
    · intro owner listed
      rw [Node.links_eq, List.pairwise_map, tier.home owner listed]
      exact numbered.ascending owner.slot
    · refine tier.ascending.imp_of_mem fun {first second} listed listedToo smaller => ?_
      intro node owns other also
      exact Node.link_lt_of_atDepth formed numbered (tier.home first listed)
        (tier.home second listedToo) (tier.atDepth first listed) (tier.atDepth second listedToo)
        smaller owns also

/-- Some of what is linked below each node of a tier is part of the next tier. -/
theorem flatMap (formed : view.WellFormed) (numbered : (view home).Numbered)
    (tier : Tier view home depth nodes) {chosen : Node Home → List (Node Home)}
    (some : ∀ node, (chosen node).Sublist (node.links view)) :
    Tier view home (depth + 1) (nodes.flatMap chosen) :=
  (tier.links formed numbered).sublist (List.Sublist.flatMap_right nodes fun node _ => some node)

/-- The owners of a tier are the tier before. -/
theorem parents [DecidableEq Home] (formed : view.WellFormed) (numbered : (view home).Numbered)
    (tier : Tier view home depth nodes) :
    Tier view home (depth - 1) (nodes.filterMap (·.parent? view)).eraseDups := by
  have owned : ∀ owner ∈ (nodes.filterMap (·.parent? view)).eraseDups,
      ∃ node ∈ nodes, Node.Owns view owner node := by
    intro owner member
    obtain ⟨node, listed, linked⟩ := List.mem_filterMap.mp (List.mem_eraseDups.mp member)
    exact ⟨node, listed, (Node.owns_iff formed).mpr linked⟩
  have isHome : ∀ owner ∈ (nodes.filterMap (·.parent? view)).eraseDups, owner.home = home := by
    intro owner member
    obtain ⟨node, listed, owns⟩ := owned owner member
    exact owns.home_eq.symm.trans (tier.home node listed)
  refine ⟨isHome, ?_, ?_, ?_⟩
  · intro owner member
    obtain ⟨node, _, owns⟩ := owned owner member
    exact owns.exists_owner formed
  · intro owner member
    obtain ⟨node, listed, owns⟩ := owned owner member
    obtain ⟨above, rfl, atDepth⟩ := (tier.atDepth node listed).of_owns formed owns
    exact atDepth
  · have weakly : (nodes.filterMap (·.parent? view)).Pairwise (·.slot ≤ ·.slot) := by
      rw [List.pairwise_filterMap]
      refine tier.ascending.imp_of_mem fun {node other} listed listedToo smaller => ?_
      intro first linked second linkedToo
      exact Node.owner_le_of_atDepth formed numbered (tier.home node listed)
        (tier.home other listedToo) (tier.atDepth node listed) (tier.atDepth other listedToo)
        smaller ((Node.owns_iff formed).mpr linked) ((Node.owns_iff formed).mpr linkedToo)
    have once := nodup_eraseDups (nodes.filterMap (·.parent? view))
    refine ((weakly.sublist (eraseDups_sublist _)).and once).imp_of_mem ?_
    intro first second member memberToo bounds
    refine Nat.lt_of_le_of_ne bounds.1 fun same => bounds.2 ?_
    obtain ⟨_, slot⟩ := first
    obtain ⟨_, other⟩ := second
    obtain rfl : slot = other := same
    rw [Node.mk.injEq]
    exact ⟨(isHome _ member).trans (isHome _ memberToo).symm, rfl⟩

end Tier

/-- Whether a path goes neither to all descendants nor two ways at once, outside its filters. -/
def Path.isDirect : Path → Bool
  | .tag _ | .wildcard | .current | .parent | .text | .attribute _ => true
  | .parenthesized inner => inner.isDirect
  | .step left axis right => left.isDirect && axis = .child && right.isDirect
  | .filtered base _ => base.isDirect
  | .pair _ _ => false

theorem Node.children_sublist_links (node : Node Home) :
    (node.children view).Sublist (node.links view) :=
  List.sublist_append_right _ _

theorem Node.attribute?_sublist_links (node : Node Home) (name : String) :
    (node.attribute? view name).toList.Sublist (node.links view) := by
  cases found : node.attribute? view name with
  | none => exact List.nil_sublist _
  | some given =>
      rw [Node.attribute?, Option.map_eq_some_iff] at found
      obtain ⟨slot, found, rfl⟩ := found
      have listed : node.sibling slot ∈ node.attributes view :=
        List.mem_map_of_mem (Arena.attribute?_eq_some found).1
      exact List.singleton_sublist.mpr (List.mem_append_left _ listed)

/-- **A direct path leads from a tier to a tier.** -/
theorem Path.select_tier [DecidableEq Home] (formed : view.WellFormed)
    (numbered : (view home).Numbered) : (path : Path) → path.isDirect = true →
    ∀ {depth : Nat} {nodes : List (Node Home)}, Tier view home depth nodes →
      ∃ reached, Tier view home reached (path.select view nodes)
  | .tag name, _, depth, nodes, tier => by
      rw [Path.select]
      exact ⟨_, (tier.flatMap formed numbered Node.children_sublist_links).sublist
        List.filter_sublist⟩
  | .wildcard, _, depth, nodes, tier => by
      rw [Path.select]
      exact ⟨_, tier.flatMap formed numbered Node.children_sublist_links⟩
  | .current, _, depth, nodes, tier => by
      rw [Path.select]
      exact ⟨_, tier⟩
  | .parent, _, depth, nodes, tier => by
      rw [Path.select]
      exact ⟨_, tier.parents formed numbered⟩
  | .text, _, depth, nodes, tier => by
      rw [Path.select]
      exact ⟨_, (tier.flatMap formed numbered Node.children_sublist_links).sublist
        List.filter_sublist⟩
  | .attribute name, _, depth, nodes, tier => by
      rw [Path.select, List.filterMap_eq_flatMap_toList]
      exact ⟨_, tier.flatMap formed numbered fun node => node.attribute?_sublist_links name⟩
  | .parenthesized inner, direct, depth, nodes, tier => by
      rw [Path.isDirect] at direct
      rw [Path.select]
      exact Path.select_tier formed numbered inner direct tier
  | .step left axis right, direct, depth, nodes, tier => by
      rw [Path.isDirect, Bool.and_eq_true, Bool.and_eq_true, decide_eq_true_eq] at direct
      obtain ⟨⟨directLeft, rfl⟩, directRight⟩ := direct
      obtain ⟨between, middle⟩ := Path.select_tier formed numbered left directLeft tier
      obtain ⟨reached, last⟩ := Path.select_tier formed numbered right directRight middle
      rw [Path.select, Axis.expand]
      exact ⟨reached, last.sublist (eraseDups_sublist _)⟩
  | .filtered base filter, direct, depth, nodes, tier => by
      rw [Path.isDirect] at direct
      obtain ⟨reached, last⟩ := Path.select_tier formed numbered base direct tier
      rw [Path.select]
      exact ⟨reached, last.sublist List.filter_sublist⟩

/-- **A direct path off a node of a document keeps document order**: what it reaches belongs to the
document, and slots ascend as document order does. -/
theorem Path.select_inOrder [DecidableEq Home] (reachable : ∀ home, (view home).Reachable)
    {node : Node Home} {fragments : List Fragment}
    (tagged : ∀ fragment ∈ fragments, fragment.attributesInTags = true)
    (document : view node.home = .ofFragments fragments) (inside : node.Exists view)
    {path : Path} (direct : path.isDirect = true) :
    (∀ found ∈ path.select view [node], found.home = node.home) ∧
      (path.select view [node]).Pairwise fun first second =>
        first.slot < second.slot ∧ first.Precedes view second := by
  have formed : view.WellFormed := fun home => (reachable home).wellFormed
  have numbered : (view node.home).Numbered := by
    rw [document]
    exact Arena.numbered_ofFragments tagged
  obtain ⟨depth, atDepth⟩ := Node.exists_atDepth formed node
  have start : Tier view node.home depth [node] :=
    ⟨by simp, by simpa using inside, by simpa using atDepth, List.pairwise_singleton _ _⟩
  obtain ⟨reached, tier⟩ := Path.select_tier formed numbered path direct start
  refine ⟨tier.home, tier.ascending.imp_of_mem ?_⟩
  intro first second member memberToo smaller
  exact ⟨smaller, (Node.precedes_iff formed numbered (tier.home first member)
    (tier.home second memberToo) (tier.exist first member) (tier.exist second memberToo)).mpr
    smaller⟩

/-- The document `<r><a i="1"><b/><c/></a><a i="2"><b/></a></r>`. -/
def twoRows : View Unit := fun _ =>
  .ofFragments [.element "r" []
    [.element "a" [("i", "1")] [.element "b" [] [], .element "c" [] []],
      .element "a" [("i", "2")] [.element "b" [] []]]]

/-- The path `a[.//b, c]/*/../@i`. -/
def downAndUp : Path :=
  .step (.step (.step
    (.filtered (.tag "a") (.path (.pair (.step .current .descendantOrSelf (.tag "b")) (.tag "c"))))
    .child .wildcard) .child .parent) .child (.attribute "i")

/-- The attributes of both rows of `twoRows`: the first row is the owner of two nodes on the way
and is kept once. -/
theorem Path.select_inOrder_downAndUp :
    downAndUp.select twoRows [⟨(), 1⟩] = [⟨(), 3⟩, ⟨(), 7⟩] ∧
      (∀ found ∈ downAndUp.select twoRows [⟨(), 1⟩], found.home = ()) ∧
        (downAndUp.select twoRows [⟨(), 1⟩]).Pairwise fun first second =>
          first.slot < second.slot ∧ first.Precedes twoRows second := by
  have reachable : ∀ home, (twoRows home).Reachable := fun _ => .ofFragments _
  have inside : (⟨(), 1⟩ : Node Unit).Exists twoRows := by decide +kernel
  have direct : downAndUp.isDirect = true := by decide +kernel
  exact ⟨by decide +kernel, select_inOrder reachable (by decide +kernel) rfl inside direct⟩

end TreeQuery
