import TreeQuery.Proofs.Node.Order
import TreeQuery.Proofs.Path.Regrouping
import TreeQuery.Query.Join

/-!
# Descendant search

A search for descendants of a name first gathers the context nodes with all their descendants, and
then the children of that name of everything gathered.  The context can repeat nodes and can hold a
node together with nodes below it, so a gathered list can hold a subtree many times, in whole or in
part.  What is found is still each descendant of the name, once; and from a single node it is found
in document order of the parents, and among the children of one parent in theirs
(`Path.selectAlong_tag_descendants`).
-/

set_option autoImplicit false

namespace TreeQuery

open Relation

variable {Home : Type} {view : View Home} {context : List (Node Home)} {start node : Node Home}

/-- The first of two children comes before the second: its parent precedes that of the second, or
both have one parent, which lists the first before the second. -/
def Node.PrecedesAsChild (view : View Home) (first second : Node Home) : Prop :=
  ∃ parent other, HasChild view parent first ∧ HasChild view other second ∧
    (Precedes view parent other ∨
      parent = other ∧ [first, second].Sublist (parent.children view))

/-- The children of nodes in document order are in the order of their parents. -/
theorem Node.pairwise_children {parents : List (Node Home)}
    (ordered : parents.Pairwise (Precedes view)) :
    (parents.flatMap (·.children view)).Pairwise (PrecedesAsChild view) := by
  rw [List.pairwise_flatMap]
  constructor
  · intro parent _
    rw [List.pairwise_iff_forall_sublist]
    intro first second listed
    obtain ⟨firstListed, secondListed⟩ := mem_of_sublist_pair listed
    exact ⟨parent, parent, firstListed, secondListed, .inr ⟨rfl, listed⟩⟩
  · refine ordered.imp fun {parent other} precedes first listed second listedToo => ?_
    exact ⟨parent, other, listed, listedToo, .inl precedes⟩

variable [DecidableEq Home]

/-- The nodes from which a descendant step is taken are the context nodes and all below them. -/
theorem Axis.mem_expand_descendantOrSelf (formed : view.WellFormed)
    (exist : ∀ start ∈ context, start.Exists view) :
    node ∈ Axis.descendantOrSelf.expand view context ↔
      ∃ start ∈ context, ReflTransGen (Node.HasChild view) start node := by
  rw [expand, List.mem_eraseDups, List.mem_flatMap]
  refine exists_congr fun start => and_congr_right fun member => ?_
  exact Node.mem_descendantsOrSelf_iff formed (exist start member)

/-- From a single node, the descendant step is taken in document order. -/
theorem Axis.pairwise_expand_descendantOrSelf (formed : view.WellFormed)
    (inside : start.Exists view) :
    (Axis.descendantOrSelf.expand view [start]).Pairwise (Node.Precedes view) := by
  rw [expand, List.flatMap_singleton]
  exact (Node.pairwise_descendantsOrSelf formed inside).sublist (eraseDups_sublist _)

/-- **Searching the descendants of a context for a name finds each element of that name below a
context node, once; and from a single node it finds them in the document order of their parents,
siblings in the order of the children.** -/
theorem Path.selectAlong_tag_descendants (reachable : ∀ home, (view home).Reachable)
    (exist : ∀ start ∈ context, start.Exists view) (name : String) :
    ((Path.tag name).selectAlong view .descendantOrSelf context).Nodup ∧
      (∀ node, node ∈ (Path.tag name).selectAlong view .descendantOrSelf context ↔
        node.isElementNamed view name = true ∧ ∃ start ∈ context, start.Descends view node) ∧
      ∀ start, context = [start] →
        ((Path.tag name).selectAlong view .descendantOrSelf context).Pairwise
          (Node.PrecedesAsChild view) := by
  have formed : view.WellFormed := fun home => (reachable home).wellFormed
  rw [Path.selectAlong, Path.select]
  refine ⟨nodup_eraseDups _, fun node => ?_, ?_⟩
  · rw [List.mem_eraseDups, List.mem_filter, List.mem_flatMap, and_comm]
    refine and_congr_right fun _ => ?_
    constructor
    · rintro ⟨parent, gathered, listed⟩
      obtain ⟨start, member, below⟩ :=
        (Axis.mem_expand_descendantOrSelf formed exist).mp gathered
      exact ⟨start, member, .tail' below listed⟩
    · rintro ⟨start, member, descends⟩
      obtain ⟨parent, below, listed⟩ := TransGen.tail'_iff.mp descends
      exact ⟨parent, (Axis.mem_expand_descendantOrSelf formed exist).mpr ⟨start, member, below⟩,
        listed⟩
  · rintro start rfl
    have inside := exist start List.mem_cons_self
    exact (Node.pairwise_children (Axis.pairwise_expand_descendantOrSelf formed inside)).sublist
      ((eraseDups_sublist _).trans List.filter_sublist)

/-- The document `<a><b><a/></b><a/></a>`. -/
def namedAlike : View Unit := fun _ =>
  .ofFragments [.element "a" [] [.element "b" [] [.element "a" [] []], .element "a" [] []]]

/-- A context in `namedAlike` that repeats the outer element and holds another one below it. -/
def repeatedContext : List (Node Unit) := [⟨(), 1⟩, ⟨(), 2⟩, ⟨(), 1⟩]

/-- The last element of the name is found first, as its parent comes first. -/
theorem Path.selectAlong_tag_descendants_repeated :
    (Path.tag "a").selectAlong namedAlike .descendantOrSelf repeatedContext =
        [⟨(), 4⟩, ⟨(), 3⟩] ∧
      ∀ node, node ∈ (Path.tag "a").selectAlong namedAlike .descendantOrSelf repeatedContext ↔
        node.isElementNamed namedAlike "a" = true ∧
          ∃ start ∈ repeatedContext, start.Descends namedAlike node := by
  have reachable : ∀ home, (namedAlike home).Reachable := fun _ => .ofFragments _
  have exist : ∀ start ∈ repeatedContext, start.Exists namedAlike := by decide +kernel
  exact ⟨by decide +kernel, (selectAlong_tag_descendants reachable exist "a").2.1⟩

end TreeQuery
