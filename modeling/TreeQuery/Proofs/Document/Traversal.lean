import Mathlib.Data.List.Flatten
import Mathlib.Logic.Function.Iterate
import Mathlib.Logic.Relation
import TreeQuery.Proofs.Document.Reading

/-!
# Traversals with a stack

The descendants of a node are gathered by a loop over a stack of slots.  A turn of the loop takes
the top off the stack, visits it, and pushes its children, the last child first, so that the first
child is on top.  The loop has no bound of its own and remembers no slot that it has seen: that it
ends, and neither visits nor pushes a slot twice, it owes to the links of the arena.

What carries the proofs is a property of the whole stack (`Traversal.Covers`).  At any time the
slots that have been visited, followed by the descendants of every slot on the stack from the top
down, are the descendants of the slot from which the traversal started.  A turn moves one slot from
the second part to the first, so the loop ends after as many turns as there are descendants
(`Traversal.stack_eq_nil_iff`), and all that it has pushed by then is among them.

For every arena that can come about, the result is the node and its descendants in the order of the
recursion over children, each once (`Arena.descendantsOrSelf_preorder`).
-/

set_option autoImplicit false

namespace TreeQuery

open Relation

/-! ## Above and below -/

namespace Arena

variable {arena : Arena} {slot other : Nat}

/-- A node and its parent, which has it among its children. -/
def IsChildOf (arena : Arena) (child parent : Nat) : Prop :=
  (arena.record child).parent = some parent ∧ child ∈ arena.children parent

namespace WellFormed

theorem nodup_descendantsOrSelf (wellFormed : arena.WellFormed) (inside : slot < arena.size) :
    (arena.descendantsOrSelf slot).Nodup :=
  wellFormed.descendantsOrSelf_eq_preorder inside ▸ wellFormed.preorder_nodup slot

theorem lt_size_of_mem_descendantsOrSelf (wellFormed : arena.WellFormed)
    (inside : slot < arena.size) (member : other ∈ arena.descendantsOrSelf slot) :
    other < arena.size := by
  rw [wellFormed.descendantsOrSelf_eq_preorder inside] at member
  exact (wellFormed.le_of_mem_preorder member).2 inside

theorem length_descendantsOrSelf_le (wellFormed : arena.WellFormed) (inside : slot < arena.size) :
    (arena.descendantsOrSelf slot).length ≤ arena.size :=
  wellFormed.descendantsOrSelf_eq_preorder inside ▸ wellFormed.length_preorder_le inside _

theorem self_mem_descendantsOrSelf (wellFormed : arena.WellFormed) (inside : slot < arena.size) :
    slot ∈ arena.descendantsOrSelf slot := by
  rw [wellFormed.descendantsOrSelf_eq inside]
  exact List.mem_cons_self

/-- The descendants of a node are the nodes from which it is reached by going up. -/
theorem mem_descendantsOrSelf_iff (wellFormed : arena.WellFormed) (inside : slot < arena.size) :
    other ∈ arena.descendantsOrSelf slot ↔ ReflTransGen arena.IsChildOf other slot := by
  constructor
  · intro member
    induction slot using wellFormed.induction with
    | step slot ih =>
        rw [wellFormed.descendantsOrSelf_eq inside, List.mem_cons, List.mem_flatMap] at member
        rcases member with rfl | ⟨child, listed, member⟩
        · exact .refl
        · exact .tail (ih child listed (wellFormed.child_lt listed).2 member)
            ⟨wellFormed.child_parent listed, listed⟩
  · intro climbs
    induction climbs with
    | refl => exact wellFormed.self_mem_descendantsOrSelf inside
    | @tail child parent _ isChild ih =>
        have listed : child ∈ arena.children parent := isChild.2
        rw [wellFormed.descendantsOrSelf_eq inside]
        exact List.mem_cons_of_mem _
          (List.mem_flatMap.mpr ⟨child, listed, ih (wellFormed.child_lt listed).2⟩)

end WellFormed

end Arena

/-! ## The loop -/

/-- A traversal under way: the slots it has visited, its stack, on which the last slot is the top,
and all slots that it has ever pushed, each list in the order in which things happened. -/
structure Traversal where
  visited : List Nat
  stack : List Nat
  pushed : List Nat
  deriving DecidableEq

namespace Traversal

variable {arena : Arena} {slot : Nat} {traversal : Traversal}

/-- A traversal before its first turn. -/
def start (slot : Nat) : Traversal := ⟨[], [slot], [slot]⟩

/-- A turn of the loop.  With an empty stack the loop has ended, and nothing changes. -/
def turn (arena : Arena) (traversal : Traversal) : Traversal :=
  match traversal.stack.getLast? with
  | none => traversal
  | some top =>
      let children := (arena.children top).reverse
      ⟨traversal.visited ++ [top], traversal.stack.dropLast ++ children,
        traversal.pushed ++ children⟩

/-- All that a turn can do. -/
theorem turn_cases (arena : Arena) (traversal : Traversal) :
    (traversal.stack = [] ∧ turn arena traversal = traversal) ∨
      ∃ lower top, traversal.stack = lower ++ [top] ∧
        turn arena traversal =
          ⟨traversal.visited ++ [top], lower ++ (arena.children top).reverse,
            traversal.pushed ++ (arena.children top).reverse⟩ := by
  obtain ⟨visited, stack, pushed⟩ := traversal
  rcases List.eq_nil_or_concat stack with rfl | ⟨lower, top, rfl⟩
  · exact .inl ⟨rfl, rfl⟩
  · exact .inr ⟨lower, top, by simp, by simp [turn]⟩

/-- The loop, stopped after a number of turns, has visited what a traversal that may make as many
visits does, whatever the links of the arena are. -/
theorem visited_iterate_turn (arena : Arena) (turns : Nat) (traversal : Traversal) :
    ((turn arena)^[turns] traversal).visited =
      traversal.visited ++ arena.visit turns traversal.stack.reverse := by
  induction turns generalizing traversal with
  | zero => rw [Function.iterate_zero_apply, Arena.visit, List.append_nil]
  | succ turns ih =>
      rw [Function.iterate_succ_apply, ih]
      rcases turn_cases arena traversal with ⟨empty, turned⟩ | ⟨lower, top, stack, turned⟩
      · rw [turned, empty, List.reverse_nil, Arena.visit_nil, Arena.visit_nil]
      · simp only [turned, stack, List.reverse_append, List.reverse_reverse, List.reverse_singleton,
          List.singleton_append, Arena.visit, List.append_assoc]

/-! ## What a turn preserves -/

/-- What holds of a traversal from a slot, at any time: what has been visited and what is below the
stack, from the top down, is what there is below the slot; every slot that has been pushed has been
visited or is still on the stack; and the stack holds nodes of the arena. -/
structure Covers (arena : Arena) (slot : Nat) (traversal : Traversal) : Prop where
  whole : traversal.visited ++ traversal.stack.reverse.flatMap arena.descendantsOrSelf =
    arena.descendantsOrSelf slot
  pushed : traversal.pushed.Perm (traversal.visited ++ traversal.stack)
  exist : ∀ waiting ∈ traversal.stack, waiting < arena.size

namespace Covers

theorem start (inside : slot < arena.size) : (Traversal.start slot).Covers arena slot where
  whole := by simp [Traversal.start]
  pushed := .refl _
  exist := by
    intro waiting member
    rw [List.mem_singleton.mp member]
    exact inside

theorem turn (wellFormed : arena.WellFormed) (covers : traversal.Covers arena slot) :
    (Traversal.turn arena traversal).Covers arena slot := by
  rcases turn_cases arena traversal with ⟨_, turned⟩ | ⟨lower, top, stack, turned⟩
  · rw [turned]
    exact covers
  · obtain ⟨whole, pushed, exist⟩ := covers
    rw [stack] at whole pushed exist
    have inside : top < arena.size := exist top (List.mem_append_right _ List.mem_cons_self)
    rw [turned]
    constructor
    case whole =>
      -- Reversed twice, the children of the top are below it in their order.
      calc traversal.visited ++ [top] ++
            (lower ++ (arena.children top).reverse).reverse.flatMap arena.descendantsOrSelf
          = traversal.visited ++ (top :: (arena.children top).flatMap arena.descendantsOrSelf) ++
              lower.reverse.flatMap arena.descendantsOrSelf := by simp
        _ = traversal.visited ++ (lower ++ [top]).reverse.flatMap arena.descendantsOrSelf := by
          rw [← wellFormed.descendantsOrSelf_eq inside]
          simp
        _ = arena.descendantsOrSelf slot := whole
    case pushed =>
      calc List.Perm (traversal.pushed ++ (arena.children top).reverse)
            (traversal.visited ++ (lower ++ [top]) ++ (arena.children top).reverse) :=
          pushed.append_right _
        List.Perm _ (traversal.visited ++ ([top] ++ lower) ++ (arena.children top).reverse) :=
          (List.perm_append_comm.append_left _).append_right _
        _ = traversal.visited ++ [top] ++ (lower ++ (arena.children top).reverse) := by simp
    case exist =>
      intro waiting member
      rcases List.mem_append.mp member with below | child
      · exact exist waiting (List.mem_append_left _ below)
      · exact (wellFormed.child_lt (List.mem_reverse.mp child)).2

/-- The loop covers what is below the slot it started from, however many turns it has made. -/
theorem iterate_turn (wellFormed : arena.WellFormed) (inside : slot < arena.size) (turns : Nat) :
    ((Traversal.turn arena)^[turns] (.start slot)).Covers arena slot :=
  Function.Iterate.rec (fun traversal => Covers arena slot traversal) (start inside)
    (fun _ covers => covers.turn wellFormed) turns

/-- What has ever been pushed is below the slot, and no slot is there less often than it has been
pushed. -/
theorem pushed_subperm (wellFormed : arena.WellFormed) (covers : traversal.Covers arena slot) :
    traversal.pushed.Subperm (arena.descendantsOrSelf slot) := by
  have heads : traversal.stack.reverse.Sublist
      (traversal.stack.reverse.flatMap arena.descendantsOrSelf) := by
    have alone := List.Sublist.flatMap_right traversal.stack.reverse
      (f := fun waiting => [waiting]) (g := arena.descendantsOrSelf) fun waiting member =>
        List.singleton_sublist.mpr (wellFormed.self_mem_descendantsOrSelf
          (covers.exist waiting (List.mem_reverse.mp member)))
    rwa [List.flatMap_singleton'] at alone
  have listed : (traversal.visited ++ traversal.stack.reverse).Sublist
      (arena.descendantsOrSelf slot) :=
    covers.whole ▸ (List.append_sublist_append_left _).mpr heads
  refine ⟨_, ?_, listed⟩
  exact ((List.reverse_perm _).append_left _).trans covers.pushed.symm

theorem nodup_pushed (wellFormed : arena.WellFormed) (inside : slot < arena.size)
    (covers : traversal.Covers arena slot) : traversal.pushed.Nodup := by
  obtain ⟨listed, same, sublist⟩ := covers.pushed_subperm wellFormed
  exact same.nodup_iff.mp (sublist.nodup (wellFormed.nodup_descendantsOrSelf inside))

end Covers

/-! ## How the loop ends -/

variable (wellFormed : arena.WellFormed) (inside : slot < arena.size)
include wellFormed inside

/-- Every turn visits the next of the descendants. -/
theorem visited_eq_take (turns : Nat) : ((turn arena)^[turns] (.start slot)).visited =
    (arena.descendantsOrSelf slot).take turns := by
  rw [visited_iterate_turn, wellFormed.visit_eq_take,
    wellFormed.descendantsOrSelf_eq_preorder inside]
  simp [start]

/-- The descendants that have not been visited are below the stack. -/
theorem below_stack_eq_drop (turns : Nat) :
    ((turn arena)^[turns] (.start slot)).stack.reverse.flatMap arena.descendantsOrSelf =
      (arena.descendantsOrSelf slot).drop turns := by
  have whole := (Covers.iterate_turn wellFormed inside turns).whole
  rw [visited_eq_take wellFormed inside] at whole
  exact List.append_cancel_left (whole.trans (List.take_append_drop _ _).symm)

/-- The stack is empty as soon as there have been as many turns as there are descendants, and not
before. -/
theorem stack_eq_nil_iff (turns : Nat) : ((turn arena)^[turns] (.start slot)).stack = [] ↔
    (arena.descendantsOrSelf slot).length ≤ turns := by
  rw [← List.drop_eq_nil_iff, ← below_stack_eq_drop wellFormed inside]
  have covers := Covers.iterate_turn wellFormed inside turns
  constructor
  · intro empty
    rw [empty]
    rfl
  · intro nothing
    refine List.eq_nil_iff_forall_not_mem.mpr fun waiting member => ?_
    have below := List.mem_flatMap.mpr ⟨waiting, List.mem_reverse.mpr member,
      wellFormed.self_mem_descendantsOrSelf (covers.exist waiting member)⟩
    rw [nothing] at below
    exact List.not_mem_nil below

end Traversal

/-! ## The traversal of a node -/

namespace Arena

variable {arena : Arena} {slot : Nat}

/-- **The traversal of a node is the preorder of what is below it.**  Its loop ends, after no more
turns than there are nodes, and what it has visited by then is the result; it pushes nodes of the
arena only, and none twice.  The result is the node, followed by the results for its children one
after the other; it has no repetitions, and holds the nodes from which the node is reached by going
up from children to parents. -/
theorem descendantsOrSelf_preorder (reachable : arena.Reachable) (inside : slot < arena.size) :
    let loop := fun turns => (Traversal.turn arena)^[turns] (.start slot)
    (∃ turns ≤ arena.size, (∀ earlier < turns, (loop earlier).stack ≠ []) ∧
        (loop turns).stack = [] ∧ (loop turns).visited = arena.descendantsOrSelf slot) ∧
      (∀ turns, (loop turns).pushed.Nodup ∧ ∀ pushed ∈ (loop turns).pushed, pushed < arena.size) ∧
      arena.descendantsOrSelf slot =
        slot :: (arena.children slot).flatMap arena.descendantsOrSelf ∧
      (arena.descendantsOrSelf slot).Nodup ∧
      ∀ other, other ∈ arena.descendantsOrSelf slot ↔ ReflTransGen arena.IsChildOf other slot := by
  intro loop
  have wellFormed := reachable.wellFormed
  have ended := Traversal.stack_eq_nil_iff wellFormed inside
  refine ⟨⟨(arena.descendantsOrSelf slot).length, ?_, ?_, ?_, ?_⟩, ?_, ?_, ?_, ?_⟩
  · exact wellFormed.length_descendantsOrSelf_le inside
  · exact fun earlier before empty => Nat.not_lt_of_le ((ended earlier).mp empty) before
  · exact (ended _).mpr (Nat.le_refl _)
  · exact (Traversal.visited_eq_take wellFormed inside _).trans List.take_length
  · intro turns
    have covers := Traversal.Covers.iterate_turn wellFormed inside turns
    refine ⟨covers.nodup_pushed wellFormed inside, fun pushed member => ?_⟩
    exact wellFormed.lt_size_of_mem_descendantsOrSelf inside
      ((covers.pushed_subperm wellFormed).subset member)
  · exact wellFormed.descendantsOrSelf_eq inside
  · exact wellFormed.nodup_descendantsOrSelf inside
  · exact fun _ => wellFormed.mem_descendantsOrSelf_iff inside

/-- An element that is created beside a document, with attributes, elements and texts below it.
After two turns the children of an inner element lie on the stack above a text that comes after
them, the last of them first. -/
theorem descendantsOrSelf_preorder_createdElement :
    let arena := (ofFragments [.element "r" [("k", "1")] [.text "t"]]).createElement "e"
      [.attribute "k" "2", .element "a" [("j", "3")] [.text "x", .element "b" [] []], .text "y"]
    let loop := fun turns => (Traversal.turn arena)^[turns] (.start 4)
    arena.Reachable ∧ 4 < arena.size ∧ loop 2 = ⟨[4, 6], [10, 9, 8], [4, 10, 6, 9, 8]⟩ ∧
      (∃ turns ≤ 11, (loop turns).stack = [] ∧ (loop turns).visited = [4, 6, 8, 9, 10]) ∧
      ∀ other, other ∈ [4, 6, 8, 9, 10] ↔ ReflTransGen arena.IsChildOf other 4 := by
  intro arena loop
  have reachable : arena.Reachable := (Reachable.ofFragments _).develops (.createElement _ _ .refl)
  have inside : 4 < arena.size := by decide +kernel
  have result : arena.descendantsOrSelf 4 = [4, 6, 8, 9, 10] := by decide +kernel
  obtain ⟨⟨turns, bound, _, empty, visited⟩, _, _, _, below⟩ :=
    descendantsOrSelf_preorder reachable inside
  refine ⟨reachable, inside, by decide +kernel, ⟨turns, ?_, empty, visited.trans result⟩, ?_⟩
  · exact Nat.le_trans bound (by decide +kernel)
  · exact fun other => result ▸ below other

end Arena

end TreeQuery
