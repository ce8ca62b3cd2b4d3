import TreeQuery.Path.Selection
import TreeQuery.Proofs.Path.Tokens

/-!
# Paths continued by paths

A path behind a step of another path is printed without parentheses, so it is read as further
steps of that path: `Path.graft` is the path that is read.  Its steps nest the other way round,
and so repeated nodes are dropped at other points of the walk.  That makes no difference, as
dropping repeated nodes from a context changes only how often a path reaches what it reaches,
not what it reaches first (`Path.selectAlong_eraseDups`).
-/

set_option autoImplicit false

namespace TreeQuery

/-! ## Lists without repetitions -/

section Lists

variable {α β : Type} [DecidableEq α] [DecidableEq β]

/-- Induction along the members that come first: behind one stands what is left of the others. -/
@[elab_as_elim]
theorem eraseDups_induction {motive : List α → Prop} (nil : motive [])
    (cons : ∀ first rest, motive (rest.filter fun other => !other == first) →
      motive (first :: rest)) (members : List α) : motive members := by
  generalize size : members.length = length
  induction length using Nat.strongRecOn generalizing members with
  | ind length ih =>
      cases members with
      | nil => exact nil
      | cons first rest =>
          refine cons first rest (ih _ ?_ _ rfl)
          rw [← size, List.length_cons]
          exact Nat.lt_succ_of_le (List.length_filter_le _ _)

/-- Each member that comes first is kept where it stands. -/
theorem eraseDups_sublist (members : List α) : members.eraseDups.Sublist members := by
  induction members using eraseDups_induction with
  | nil => exact .slnil
  | cons first rest ih =>
      rw [List.eraseDups_cons]
      exact .cons_cons first (ih.trans List.filter_sublist)

theorem eraseDups_filter (p : α → Bool) (members : List α) :
    (members.filter p).eraseDups = members.eraseDups.filter p := by
  induction members using eraseDups_induction with
  | nil => rfl
  | cons first rest ih =>
      rw [List.eraseDups_cons, List.filter_cons, List.filter_cons, ← ih, List.filter_comm]
      split
      · rw [List.eraseDups_cons]
      · next excluded =>
          congr 1
          refine (List.filter_eq_self.mpr fun other member => ?_).symm
          have passes := List.of_mem_filter member
          rw [Bool.not_eq_true', beq_eq_false_iff_ne]
          rintro rfl
          exact excluded passes

/-- Which members of two lists come first depends on which come first in each. -/
theorem eraseDups_append (first second : List α) :
    (first ++ second).eraseDups = first.eraseDups ++
      second.eraseDups.filter fun member => !first.eraseDups.contains member := by
  rw [List.eraseDups_append, List.removeAll, eraseDups_filter]
  congr 2
  funext member
  rw [Bool.eq_iff_iff]
  simp

theorem eraseDups_flatMap (f : α → List β) (members : List α) :
    (members.eraseDups.flatMap f).eraseDups = (members.flatMap f).eraseDups := by
  induction members using eraseDups_induction with
  | nil => rfl
  | cons first rest ih =>
      rw [List.eraseDups_cons, List.flatMap_cons, List.flatMap_cons, eraseDups_append, ih,
        ← eraseDups_append, List.eraseDups_append, List.eraseDups_append]
      -- what the repeated first member would add is there already
      congr 2
      clear ih
      induction rest with
      | nil => rfl
      | cons other rest ih =>
          rw [List.filter_cons, List.flatMap_cons]
          split
          · rw [List.flatMap_cons, List.removeAll, List.removeAll, List.filter_append,
              List.filter_append]
            exact congrArg _ ih
          · next same =>
              obtain rfl : other = first := by simpa using same
              rw [ih, List.removeAll, List.removeAll, List.filter_append]
              simp

theorem eraseDups_eraseDups (members : List α) :
    members.eraseDups.eraseDups = members.eraseDups := by
  simpa using eraseDups_flatMap (fun member => [member]) members

/-- Lists with the same members in the same order of first occurrence. -/
def SameFirsts (first second : List α) : Prop := first.eraseDups = second.eraseDups

namespace SameFirsts

variable {first second : List α}

theorem eraseDups (members : List α) : SameFirsts members.eraseDups members :=
  eraseDups_eraseDups members

theorem filter (same : SameFirsts first second) (p : α → Bool) :
    SameFirsts (first.filter p) (second.filter p) := by
  rw [SameFirsts, eraseDups_filter, eraseDups_filter, same]

theorem append (same : SameFirsts first second) {more others : List α}
    (also : SameFirsts more others) : SameFirsts (first ++ more) (second ++ others) := by
  rw [SameFirsts, eraseDups_append, eraseDups_append, same, also]

theorem flatMap (same : SameFirsts first second) (f : α → List β) :
    SameFirsts (first.flatMap f) (second.flatMap f) := by
  rw [SameFirsts, ← eraseDups_flatMap, same, eraseDups_flatMap]

theorem filterMap (same : SameFirsts first second) (f : α → Option β) :
    SameFirsts (first.filterMap f) (second.filterMap f) := by
  rw [List.filterMap_eq_flatMap_toList, List.filterMap_eq_flatMap_toList]
  exact same.flatMap _

theorem eraseDups_both (same : SameFirsts first second) :
    SameFirsts first.eraseDups second.eraseDups :=
  congrArg List.eraseDups same

end SameFirsts

end Lists

/-! ## Selection -/

section

variable {Home : Type} [DecidableEq Home] {view : View Home} {context others : List (Node Home)}

theorem Axis.expand_sameFirsts (axis : Axis) (same : SameFirsts context others) :
    SameFirsts (axis.expand view context) (axis.expand view others) := by
  cases axis with
  | child => exact same
  | descendantOrSelf => exact (same.flatMap _).eraseDups_both

/-- What a path reaches first does not depend on repetitions in the context. -/
theorem Path.select_sameFirsts : (path : Path) → ∀ {context others : List (Node Home)},
    SameFirsts context others →
      SameFirsts (path.select view context) (path.select view others)
  | .tag _, _, _, same => by
      rw [select, select]
      exact (same.flatMap _).filter _
  | .wildcard, _, _, same => by
      rw [select, select]
      exact same.flatMap _
  | .current, _, _, same => by
      rw [select, select]
      exact same
  | .parent, _, _, same => by
      rw [select, select]
      exact (same.filterMap _).eraseDups_both
  | .text, _, _, same => by
      rw [select, select]
      exact (same.flatMap _).filter _
  | .attribute _, _, _, same => by
      rw [select, select]
      exact same.filterMap _
  | .parenthesized inner, _, _, same => by
      rw [select, select]
      exact inner.select_sameFirsts same
  | .step left axis right, _, _, same => by
      rw [select, select]
      exact (right.select_sameFirsts
        (axis.expand_sameFirsts (left.select_sameFirsts same))).eraseDups_both
  | .filtered base _, _, _, same => by
      rw [select, select]
      exact (base.select_sameFirsts same).filter _
  | .pair left right, _, _, same => by
      rw [select, select]
      exact (left.select_sameFirsts same).append (right.select_sameFirsts same)

/-- Dropping repetitions from a context changes nothing. -/
theorem Path.selectAlong_eraseDups (path : Path) (axis : Axis) (context : List (Node Home)) :
    path.selectAlong view axis context.eraseDups = path.selectAlong view axis context :=
  path.select_sameFirsts (axis.expand_sameFirsts (.eraseDups context))

/-- Two steps taken one after the other are one step along a path of two parts. -/
theorem Path.selectAlong_step (first second : Path) (outer inner : Axis)
    (context : List (Node Home)) :
    (Path.step first inner second).selectAlong view outer context =
      second.selectAlong view inner (first.selectAlong view outer context) := by
  let reached := first.select view (outer.expand view context)
  calc (Path.step first inner second).selectAlong view outer context
      = (second.selectAlong view inner reached).eraseDups := by rw [selectAlong, select_step]
    _ = second.selectAlong view inner reached := eraseDups_eraseDups _
    _ = second.selectAlong view inner reached.eraseDups := (selectAlong_eraseDups ..).symm

/-- **Steps associate, and repetitions in a context are ignored**, whatever the steps are: a
step behind a step is a step along the path of the two, and a step from a context is a step
from the nodes of the context, each taken once. -/
theorem Path.selectAlong_associates (view : View Home) (context : List (Node Home))
    (first second : Path) (outer inner : Axis) :
    second.selectAlong view inner (first.selectAlong view outer context) =
        (Path.step first inner second).selectAlong view outer context ∧
      first.selectAlong view outer context =
        first.selectAlong view outer context.eraseDups :=
  ⟨(selectAlong_step ..).symm, (selectAlong_eraseDups ..).symm⟩

end

/-! ## Grafts -/

/-- A path continued by another along an axis, with the steps as they are read. -/
def Path.graft (first : Path) (axis : Axis) : Path → Path
  | .step left between right => .step (first.graft axis left) between right
  | path => .step first axis path

section

variable {Home : Type} [DecidableEq Home] {view : View Home}

/-- A graft selects what its parts select one after the other. -/
theorem Path.select_graft (first : Path) (axis : Axis) : (path : Path) →
    (context : List (Node Home)) →
      (first.graft axis path).select view context =
        path.selectAlong view axis (first.select view context)
  | .step left between right, context => by
      rw [graft, select_step, select_graft first axis left, selectAlong_step]
  | .tag _, _ | .wildcard, _ | .current, _ | .parent, _ | .text, _ | .attribute _, _
  | .parenthesized _, _ | .filtered _ _, _ | .pair _ _, _ => by
      simp [graft, select_step]

/-- A step over a step is a step along a graft. -/
theorem Path.selectAlong_graft (first : Path) (outer axis : Axis) (path : Path)
    (context : List (Node Home)) :
    (first.graft axis path).selectAlong view outer context =
      path.selectAlong view axis (first.selectAlong view outer context) := by
  have inner : first.selectAlong view outer context =
      (first.select view (outer.expand view context)).eraseDups := rfl
  rw [inner, selectAlong_eraseDups, selectAlong, select_graft]
  exact eraseDups_eraseDups _

end

theorem Path.tightness_graft (first : Path) (axis : Axis) (path : Path) :
    (first.graft axis path).tightness = 1 := by
  cases path <;> rfl

theorem Path.isPrintable_graft (first : Path) (axis : Axis) : (path : Path) →
    (first.graft axis path).isPrintable = (first.isPrintable && path.isPrintable)
  | .step left _ _ => by
      rw [graft, isPrintable, isPrintable_graft first axis left, isPrintable, Bool.and_assoc]
  | .tag _ | .wildcard | .current | .parent | .text | .attribute _ | .parenthesized _
  | .filtered _ _ | .pair _ _ => by
      simp [graft, isPrintable]

/-- A graft is printed as its parts, one behind the other. -/
theorem Path.tokens_graft (first : Path) (axis : Axis) : (path : Path) →
    (first.graft axis path).tokens =
      (first.operand 1).tokens ++ axis.separator :: (path.operand 1).tokens
  | .step left between right => by
      rw [graft, tokens, tightness_graft, tokens_graft first axis left, tokens_operand,
        tokens_operand,
        tokens_operand, tokens]
      simp [enclosedIf, tightness]
  | .tag _ | .wildcard | .current | .parent | .text | .attribute _ | .parenthesized _
  | .filtered _ _ | .pair _ _ => by
      simp [graft, tokens, tokens_operand, tightness]

end TreeQuery
