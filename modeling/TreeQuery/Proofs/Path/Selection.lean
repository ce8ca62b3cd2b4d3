import TreeQuery.Path.Selection
import TreeQuery.Proofs.Node.Matching

/-!
# Paths select alike

A path that is walked from matching nodes reaches matching nodes, in the same order, and a
filter holds of matching nodes alike (`select_matching`, `holds_matching`).  Only a path
with a step to a parent needs that parents match as well.

A matching is needed although comparisons look at content only, because repeated nodes are
dropped wherever two parts of a path meet.  Where order and number do not count, nodes that
are alike are enough (`selectAlong_gathered`).  With the nodes of a view matched to themselves
the statement says that a path still selects the same nodes when something has been
constructed (`selectAlong_extend`).
-/

set_option autoImplicit false

namespace TreeQuery

variable {Home : Type} {left right : View Home}
variable {Same : Node Home → Node Home → Prop} {node other : Node Home}
variable {context others : List (Node Home)}

/-! ## Comparisons -/

section Comparisons

variable {items otherItems : List (Node Home)}

/-- Comparing by value does not tell a node from a copy, and does not count. -/
theorem anyValueEq_gathered (formedLeft : left.WellFormed) (formedRight : right.WellFormed)
    (gathered : Gathered (Node.Alike left right) context others)
    (gatheredItems : Gathered (Node.Alike left right) items otherItems) :
    anyValueEq right others otherItems = anyValueEq left context items := by
  refine gathered.any_eq fun alike => ?_
  rw [Bool.eq_iff_iff, List.contains_iff_mem, List.contains_iff_mem, List.mem_map, List.mem_map,
    alike.valueKey_eq formedLeft formedRight]
  constructor
  · rintro ⟨other, listed, same⟩
    obtain ⟨item, member, alike⟩ := gatheredItems.right other listed
    exact ⟨item, member, (alike.valueKey_eq formedLeft formedRight).symm.trans same⟩
  · rintro ⟨item, listed, same⟩
    obtain ⟨other, member, alike⟩ := gatheredItems.left item listed
    exact ⟨other, member, (alike.valueKey_eq formedLeft formedRight).trans same⟩

theorem anyStringValue_gathered (gathered : Gathered (Node.Alike left right) context others)
    (value : String) : anyStringValue right others value = anyStringValue left context value := by
  refine gathered.any_eq fun alike => ?_
  rw [alike.stringValue_eq]

/-- Identity is kept by a matching. -/
theorem anyIdentical_matching [DecidableEq Home] (matching : Matching left right Same)
    (same : List.Forall₂ Same context others) (sameItems : List.Forall₂ Same items otherItems) :
    anyIdentical others otherItems = anyIdentical context items := by
  have contains : ∀ {node other}, Same node other →
      otherItems.contains other = items.contains node := by
    intro node other related
    rw [Bool.eq_iff_iff, List.contains_iff_mem, List.contains_iff_mem]
    have unique : Relator.BiUnique Same :=
      ⟨fun _ _ _ first second => matching.left_unique first second,
        fun _ _ _ first second => matching.right_unique first second⟩
    exact (List.rel_mem unique related sameItems).symm
  rw [anyIdentical, anyIdentical]
  clear sameItems
  induction same with
  | nil => rfl
  | cons head _ ih => rw [List.any_cons, List.any_cons, ih, contains head]

end Comparisons

/-! ## Selection -/

section Selection

variable (matching : Matching left right Same)
include matching

theorem alike_of_matching (same : List.Forall₂ Same context others) :
    List.Forall₂ (Node.Alike left right) context others :=
  same.imp fun _ _ => matching.alike

variable [DecidableEq Home]

theorem eraseDups_matching (same : List.Forall₂ Same context others) :
    List.Forall₂ Same context.eraseDups others.eraseDups :=
  rel_eraseDups matching.eq_iff same

variable (formedLeft : left.WellFormed) (formedRight : right.WellFormed)
include formedLeft formedRight

theorem expand_matching (axis : Axis) (same : List.Forall₂ Same context others) :
    List.Forall₂ Same (axis.expand left context) (axis.expand right others) := by
  cases axis with
  | child => exact same
  | descendantOrSelf =>
      refine eraseDups_matching matching (List.rel_flatMap same ?_)
      exact fun _ _ related =>
        matching.toDownward.descendantsOrSelf formedLeft formedRight related

mutual
/-- **A path reaches matching nodes from matching nodes.** -/
theorem Path.select_matching : (path : Path) →
    (path.usesParent = true → Upward left right Same) → ∀ {context others : List (Node Home)},
      List.Forall₂ Same context others →
        List.Forall₂ Same (path.select left context) (path.select right others)
  | .tag name, _, context, others, same => by
      rw [Path.select, Path.select]
      refine forall₂_filter (List.rel_flatMap same fun _ _ => matching.children) fun related => ?_
      exact (matching.alike related).isElementNamed_eq formedLeft formedRight name
  | .wildcard, _, context, others, same => by
      rw [Path.select, Path.select]
      exact List.rel_flatMap same fun _ _ => matching.children
  | .current, _, context, others, same => by
      rw [Path.select, Path.select]
      exact same
  | .parent, upward, context, others, same => by
      rw [Path.select, Path.select]
      exact eraseDups_matching matching
        (List.rel_filterMap (fun node other => upward rfl node other) same)
  | .text, _, context, others, same => by
      rw [Path.select, Path.select]
      refine forall₂_filter (List.rel_flatMap same fun _ _ => matching.children) fun related => ?_
      rw [(matching.alike related).kind]
  | .attribute name, _, context, others, same => by
      rw [Path.select, Path.select]
      refine List.rel_filterMap ?_ same
      exact fun _ _ related => matching.attribute? formedLeft formedRight related name
  | .parenthesized inner, upward, context, others, same => by
      rw [Path.select, Path.select]
      exact inner.select_matching upward same
  | .step first axis second, upward, context, others, same => by
      rw [Path.usesParent, Bool.or_eq_true] at upward
      rw [Path.select, Path.select]
      refine eraseDups_matching matching
        (second.select_matching (fun uses => upward (.inr uses)) ?_)
      exact expand_matching matching formedLeft formedRight axis
        (first.select_matching (fun uses => upward (.inl uses)) same)
  | .filtered base filter, upward, context, others, same => by
      rw [Path.usesParent, Bool.or_eq_true] at upward
      rw [Path.select, Path.select]
      refine forall₂_filter (base.select_matching (fun uses => upward (.inl uses)) same) ?_
      exact fun related => filter.holds_matching (fun uses => upward (.inr uses)) related
  | .pair first second, upward, context, others, same => by
      rw [Path.usesParent, Bool.or_eq_true] at upward
      rw [Path.select, Path.select]
      exact List.rel_append (first.select_matching (fun uses => upward (.inl uses)) same)
        (second.select_matching (fun uses => upward (.inr uses)) same)

/-- A filter holds of matching nodes alike. -/
theorem Filter.holds_matching : (filter : Filter) →
    (filter.usesParent = true → Upward left right Same) → ∀ {node other : Node Home},
      Same node other → filter.holds right other = filter.holds left node
  | .path path, upward, node, other, same => by
      have selected := path.select_matching upward (.cons same .nil)
      rw [Filter.holds, Filter.holds]
      generalize path.select left [node] = reached at selected
      generalize path.select right [other] = counterparts at selected
      cases selected <;> rfl
  | .valueEq first second, upward, node, other, same => by
      rw [Filter.usesParent, Bool.or_eq_true] at upward
      rw [Filter.holds, Filter.holds]
      exact anyValueEq_gathered formedLeft formedRight
        (.of_forall₂ (alike_of_matching matching
          (first.select_matching (fun uses => upward (.inl uses)) (.cons same .nil))))
        (.of_forall₂ (alike_of_matching matching
          (second.select_matching (fun uses => upward (.inr uses)) (.cons same .nil))))
  | .identityEq first second, upward, node, other, same => by
      rw [Filter.usesParent, Bool.or_eq_true] at upward
      rw [Filter.holds, Filter.holds]
      exact anyIdentical_matching matching
        (first.select_matching (fun uses => upward (.inl uses)) (.cons same .nil))
        (second.select_matching (fun uses => upward (.inr uses)) (.cons same .nil))
  | .constantEq path value, upward, node, other, same => by
      rw [Filter.holds, Filter.holds]
      exact anyStringValue_gathered
        (.of_forall₂ (alike_of_matching matching (path.select_matching upward (.cons same .nil))))
        value
  | .parenthesized inner, upward, node, other, same => by
      rw [Filter.holds, Filter.holds]
      exact inner.holds_matching upward same
  | .and first second, upward, node, other, same => by
      rw [Filter.usesParent, Bool.or_eq_true] at upward
      rw [Filter.holds, Filter.holds, first.holds_matching (fun uses => upward (.inl uses)) same,
        second.holds_matching (fun uses => upward (.inr uses)) same]
  | .or first second, upward, node, other, same => by
      rw [Filter.usesParent, Bool.or_eq_true] at upward
      rw [Filter.holds, Filter.holds, first.holds_matching (fun uses => upward (.inl uses)) same,
        second.holds_matching (fun uses => upward (.inr uses)) same]
  | .not inner, upward, node, other, same => by
      rw [Filter.holds, Filter.holds, inner.holds_matching upward same]
end

/-- A path that continues a context reaches matching nodes from matching nodes. -/
theorem Path.selectAlong_matching (path : Path)
    (upward : path.usesParent = true → Upward left right Same) (axis : Axis)
    (same : List.Forall₂ Same context others) :
    List.Forall₂ Same (path.selectAlong left axis context)
      (path.selectAlong right axis others) := by
  rw [Path.selectAlong, Path.selectAlong]
  refine eraseDups_matching matching ?_
  exact path.select_matching matching formedLeft formedRight upward
    (expand_matching matching formedLeft formedRight axis same)

end Selection

/-! ## Old nodes -/

/-- A path selects the same existing nodes after something has been constructed. -/
theorem Path.selectAlong_extend [DecidableEq Home] {before after : View Home}
    (extend : before.Extends after) (path : Path) (axis : Axis)
    (existing : ∀ node ∈ context, node.Exists before) :
    path.selectAlong after axis context = path.selectAlong before axis context ∧
      ∀ node ∈ path.selectAlong before axis context, node.Exists before := by
  have matching := (Matching.identity extend.formed).extend (.refl extend.formed) extend
  have upward := (Matching.identity extend.formed).extend_upward
    (Matching.identity_upward extend.formed) (.refl extend.formed) extend
  have selected := path.selectAlong_matching matching extend.formed extend.still
    (fun _ => upward) axis (List.forall₂_same.mpr fun node member => ⟨existing node member, rfl⟩)
  obtain ⟨inside, same⟩ := (List.forall₂_and_left _ _).mp selected
  rw [List.forall₂_eq_eq_eq] at same
  exact ⟨same.symm, inside⟩

/-! ## Sets of nodes -/

section Sets

variable [DecidableEq Home] {view : View Home}

theorem Axis.mem_expand_iff (axis : Axis) :
    node ∈ axis.expand view context ↔ ∃ item ∈ context, node ∈ axis.expand view [item] := by
  cases axis with
  | child => simp [Axis.expand]
  | descendantOrSelf => simp [Axis.expand]

/-- A path reaches from several nodes what it reaches from each of them. -/
theorem Path.mem_select_iff : (path : Path) → ∀ {context : List (Node Home)} {node : Node Home},
    node ∈ path.select view context ↔ ∃ item ∈ context, node ∈ path.select view [item]
  | .tag name, context, node => by simp [Path.select, ← exists_and_right, and_assoc]
  | .wildcard, context, node => by simp [Path.select]
  | .current, context, node => by simp [Path.select]
  | .parent, context, node => by simp [Path.select]
  | .text, context, node => by simp [Path.select, ← exists_and_right, and_assoc]
  | .attribute name, context, node => by simp [Path.select]
  | .parenthesized inner, context, node => by
      rw [Path.select, inner.mem_select_iff]
      simp only [Path.select]
  | .step first axis second, context, node => by
      have each : ∀ {context : List (Node Home)},
          node ∈ (Path.step first axis second).select view context ↔
            ∃ middle ∈ first.select view context,
              ∃ start ∈ axis.expand view [middle], node ∈ second.select view [start] := by
        intro context
        rw [Path.select, List.mem_eraseDups, second.mem_select_iff]
        constructor
        · rintro ⟨start, expanded, reached⟩
          obtain ⟨middle, walked, expanded⟩ := (axis.mem_expand_iff).mp expanded
          exact ⟨middle, walked, start, expanded, reached⟩
        · rintro ⟨middle, walked, start, expanded, reached⟩
          exact ⟨start, (axis.mem_expand_iff).mpr ⟨middle, walked, expanded⟩, reached⟩
      rw [each]
      constructor
      · rintro ⟨middle, walked, further⟩
        obtain ⟨item, listed, walked⟩ := (first.mem_select_iff).mp walked
        exact ⟨item, listed, each.mpr ⟨middle, walked, further⟩⟩
      · rintro ⟨item, listed, reached⟩
        obtain ⟨middle, walked, further⟩ := each.mp reached
        exact ⟨middle, (first.mem_select_iff).mpr ⟨item, listed, walked⟩, further⟩
  | .filtered base filter, context, node => by
      simp only [Path.select, List.mem_filter]
      rw [base.mem_select_iff]
      simp only [← exists_and_right, and_assoc]
  | .pair first second, context, node => by
      simp only [Path.select, List.mem_append]
      rw [first.mem_select_iff, second.mem_select_iff]
      simp only [and_or_left, exists_or]

theorem Path.mem_selectAlong_iff (path : Path) (axis : Axis) :
    node ∈ path.selectAlong view axis context ↔
      ∃ item ∈ context, node ∈ path.selectAlong view axis [item] := by
  simp only [Path.selectAlong, List.mem_eraseDups]
  rw [path.mem_select_iff]
  constructor
  · rintro ⟨start, expanded, reached⟩
    obtain ⟨item, listed, expanded⟩ := (axis.mem_expand_iff).mp expanded
    exact ⟨item, listed, (path.mem_select_iff).mpr ⟨start, expanded, reached⟩⟩
  · rintro ⟨item, listed, reached⟩
    obtain ⟨start, expanded, reached⟩ := (path.mem_select_iff).mp reached
    exact ⟨start, (axis.mem_expand_iff).mpr ⟨item, listed, expanded⟩, reached⟩

/-- **A path that does not leave a node reaches alike nodes from alike nodes**, however often
they are there. -/
theorem Path.selectAlong_gathered (formedLeft : left.WellFormed) (formedRight : right.WellFormed)
    (path : Path) (below : path.usesParent = false) (axis : Axis)
    (gathered : Gathered (Node.Alike left right) context others) :
    Gathered (Node.Alike left right) (path.selectAlong left axis context)
      (path.selectAlong right axis others) := by
  have each : ∀ {item other : Node Home}, Node.Alike left right item other →
      Gathered (Node.Alike left right) (path.selectAlong left axis [item])
        (path.selectAlong right axis [other]) := by
    intro item other alike
    have matching := Inside.matching formedLeft formedRight alike
    refine .of_forall₂ (alike_of_matching matching ?_)
    exact path.selectAlong_matching matching formedLeft formedRight
      (fun uses => absurd uses (by simp [below])) axis (.cons .top .nil)
  constructor
  · intro node reached
    obtain ⟨item, listed, reached⟩ := (path.mem_selectAlong_iff axis).mp reached
    obtain ⟨other, member, alike⟩ := gathered.left item listed
    obtain ⟨copy, found, alike⟩ := (each alike).left node reached
    exact ⟨copy, (path.mem_selectAlong_iff axis).mpr ⟨other, member, found⟩, alike⟩
  · intro copy reached
    obtain ⟨other, listed, reached⟩ := (path.mem_selectAlong_iff axis).mp reached
    obtain ⟨item, member, alike⟩ := gathered.right other listed
    obtain ⟨node, found, alike⟩ := (each alike).right copy reached
    exact ⟨node, (path.mem_selectAlong_iff axis).mpr ⟨item, member, found⟩, alike⟩

end Sets

end TreeQuery
