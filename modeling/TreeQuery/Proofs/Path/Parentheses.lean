import TreeQuery.Path.Selection
import TreeQuery.Proofs.Path.Tokens

/-!
# Paths without parentheses

The skeleton of a path or a filter is the tree without any of its parentheses.  The parentheses
that printing adds are gone from it, and it selects the same nodes.
-/

set_option autoImplicit false

namespace TreeQuery

mutual
/-- A path without any of its parentheses. -/
def Path.skeleton : Path → Path
  | .parenthesized inner => inner.skeleton
  | .step left axis right => .step left.skeleton axis right.skeleton
  | .filtered base filter => .filtered base.skeleton filter.skeleton
  | .pair left right => .pair left.skeleton right.skeleton
  | .tag name => .tag name
  | .wildcard => .wildcard
  | .current => .current
  | .parent => .parent
  | .text => .text
  | .attribute name => .attribute name

/-- A filter without any of its parentheses. -/
def Filter.skeleton : Filter → Filter
  | .path path => .path path.skeleton
  | .valueEq left right => .valueEq left.skeleton right.skeleton
  | .identityEq left right => .identityEq left.skeleton right.skeleton
  | .constantEq path value => .constantEq path.skeleton value
  | .parenthesized inner => inner.skeleton
  | .and left right => .and left.skeleton right.skeleton
  | .or left right => .or left.skeleton right.skeleton
  | .not inner => .not inner.skeleton
end

/-- A document path without any parentheses. -/
def DocumentPath.skeleton (path : DocumentPath) : DocumentPath :=
  ⟨path.document, path.axis, path.path.skeleton⟩

/-! ## Added parentheses -/

@[simp] theorem Path.skeleton_parenthesizedIf (needed : Bool) (path : Path) :
    (path.parenthesizedIf needed).skeleton = path.skeleton := by
  cases needed with
  | false => rfl
  | true =>
      show (parenthesized path).skeleton = _
      rw [skeleton]

@[simp] theorem Filter.skeleton_parenthesizedIf (needed : Bool) (filter : Filter) :
    (filter.parenthesizedIf needed).skeleton = filter.skeleton := by
  cases needed with
  | false => rfl
  | true =>
      show (parenthesized filter).skeleton = _
      rw [skeleton]

@[simp] theorem Path.skeleton_asFilter : (path : Path) →
    path.asFilter.skeleton = .path path.skeleton
  | .parenthesized inner => by
      rw [asFilter, Filter.skeleton, skeleton, skeleton_asFilter inner]
  | .step _ _ _ | .filtered _ _ | .pair _ _ | .tag _ | .wildcard | .current | .parent | .text
  | .attribute _ => by
      rw [asFilter, Filter.skeleton]
      rintro _ ⟨⟩

mutual
theorem Path.skeleton_explicit : (path : Path) → path.explicit.skeleton = path.skeleton
  | .parenthesized inner => by
      rw [Path.explicit, Path.skeleton, Path.skeleton, inner.skeleton_explicit]
  | .step left _ right => by
      simp [Path.explicit, Path.skeleton, left.skeleton_explicit, right.skeleton_explicit]
  | .filtered base filter => by
      simp [Path.explicit, Path.skeleton, base.skeleton_explicit, filter.skeleton_explicit]
  | .pair left right => by
      simp [Path.explicit, Path.skeleton, left.skeleton_explicit, right.skeleton_explicit]
  | .tag _ | .wildcard | .current | .parent | .text | .attribute _ => by rw [Path.explicit]

theorem Filter.skeleton_explicit : (filter : Filter) → filter.explicit.skeleton = filter.skeleton
  | .path path => by simp [Filter.explicit, Filter.skeleton, path.skeleton_explicit]
  | .valueEq left right => by
      simp [Filter.explicit, Filter.skeleton, left.skeleton_explicit, right.skeleton_explicit]
  | .identityEq left right => by
      simp [Filter.explicit, Filter.skeleton, left.skeleton_explicit, right.skeleton_explicit]
  | .constantEq path _ => by simp [Filter.explicit, Filter.skeleton, path.skeleton_explicit]
  | .parenthesized inner => by
      rw [Filter.explicit, Filter.skeleton, Filter.skeleton, inner.skeleton_explicit]
  | .and left right => by
      simp [Filter.explicit, Filter.skeleton, left.skeleton_explicit, right.skeleton_explicit]
  | .or left right => by
      simp [Filter.explicit, Filter.skeleton, left.skeleton_explicit, right.skeleton_explicit]
  | .not inner => by simp [Filter.explicit, Filter.skeleton, inner.skeleton_explicit]
end

theorem Path.skeleton_explicit_operand (path : Path) (demanded : Nat) :
    (path.operand demanded).explicit.skeleton = path.skeleton := by
  rw [explicit_operand, skeleton_parenthesizedIf, skeleton_explicit]

/-! ## Selection -/

section

variable {Home : Type} [DecidableEq Home] (view : View Home)

mutual
theorem Path.select_skeleton : (path : Path) → (context : List (Node Home)) →
    path.skeleton.select view context = path.select view context
  | .parenthesized inner, context => by
      rw [Path.skeleton, Path.select, inner.select_skeleton]
  | .step left _ right, context => by
      rw [Path.skeleton, Path.select, Path.select, left.select_skeleton, right.select_skeleton]
  | .filtered base filter, context => by
      rw [Path.skeleton, Path.select, Path.select, base.select_skeleton]
      exact List.filter_congr fun node _ => filter.holds_skeleton node
  | .pair left right, context => by
      rw [Path.skeleton, Path.select, Path.select, left.select_skeleton, right.select_skeleton]
  | .tag _, _ | .wildcard, _ | .current, _ | .parent, _ | .text, _ | .attribute _, _ => by
      rw [Path.skeleton]

theorem Filter.holds_skeleton : (filter : Filter) → (node : Node Home) →
    filter.skeleton.holds view node = filter.holds view node
  | .path path, _ => by
      rw [Filter.skeleton, Filter.holds, Filter.holds, path.select_skeleton]
  | .valueEq left right, _ => by
      rw [Filter.skeleton, Filter.holds, Filter.holds, left.select_skeleton, right.select_skeleton]
  | .identityEq left right, _ => by
      rw [Filter.skeleton, Filter.holds, Filter.holds, left.select_skeleton, right.select_skeleton]
  | .constantEq path _, _ => by
      rw [Filter.skeleton, Filter.holds, Filter.holds, path.select_skeleton]
  | .parenthesized inner, node => by
      rw [Filter.skeleton, Filter.holds, inner.holds_skeleton]
  | .and left right, _ => by
      rw [Filter.skeleton, Filter.holds, Filter.holds, left.holds_skeleton, right.holds_skeleton]
  | .or left right, _ => by
      rw [Filter.skeleton, Filter.holds, Filter.holds, left.holds_skeleton, right.holds_skeleton]
  | .not inner, _ => by
      rw [Filter.skeleton, Filter.holds, Filter.holds, inner.holds_skeleton]
end

end

end TreeQuery
