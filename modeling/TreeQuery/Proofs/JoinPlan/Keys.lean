import Mathlib.Data.List.Perm.Subperm
import TreeQuery.JoinPlan.Assembly
import TreeQuery.Proofs.JoinPlan.Eligibility
import TreeQuery.Text.Number

/-!
# Keys of joins

Planning the joins hands out a tag for every side of an equality between groups: the name
of the variable if the side is one, the tag of a key field otherwise.  Key fields have tags
of their own, different from each other and from the names of the expression, and hold
sides of equalities (`Keys.Sound`).

The join that adds a group takes up exactly the equalities whose later group it is, so every
equality between groups is taken up once (`planJoins_ok`).
-/

set_option autoImplicit false

namespace TreeQuery

/-! ## Fresh names -/

theorem numberedName_injective (base : String) : Function.Injective (numberedName base) := by
  intro first second same
  refine Text.eq_of_toString_eq (String.toList_inj.mp ?_)
  have characters := congrArg String.toList same
  simpa [numberedName] using characters

/-- **A fresh name is not in use.** -/
theorem freshName_not_mem (used : List String) (base : String) : freshName used base ∉ used := by
  rw [freshName]
  cases found : (base :: (List.range (used.length + 1)).map fun count =>
      numberedName base (count + 2)).find? (!used.contains ·) with
  | some name =>
      have unused := List.find?_some found
      simpa using unused
  | none =>
      -- more candidates than names in use
      exfalso
      have all := List.find?_eq_none.mp found
      have distinct : ((List.range (used.length + 1)).map fun count =>
          numberedName base (count + 2)).Nodup :=
        List.nodup_range.map fun first second same =>
          Nat.add_right_cancel (numberedName_injective base same)
      have inUse : ((List.range (used.length + 1)).map fun count =>
          numberedName base (count + 2)) ⊆ used := by
        intro name member
        simpa using all name (List.mem_cons_of_mem _ member)
      have fewer := (distinct.subperm inUse).length_le
      rw [List.length_map, List.length_range] at fewer
      exact absurd fewer (Nat.not_succ_le_self _)

namespace JoinPlan

/-! ## Key fields -/

/-- What planning keeps up: the key fields have tags of their own, made from those of their
paths and different from the names of the expression, and hold sides of equalities. -/
structure Keys.Sound (reserved : List String) (IsSide : Endpoint → Prop) (keys : Keys) :
    Prop where
  reserves : ∀ name ∈ reserved, name ∈ keys.names
  inUse : ∀ field ∈ keys.fields, field.tag ∈ keys.names
  nodup : (keys.fields.map (·.tag)).Nodup
  fresh : ∀ field ∈ keys.fields, field.tag ∉ reserved
  sides : ∀ field ∈ keys.fields, IsSide ⟨field.group, field.query⟩
  resembles : ∀ field ∈ keys.fields, ∃ used, field.tag = freshName used (keyBase field.query)

/-- A tag names the field that holds a side of an equality: the field of a variable, or a
key field. -/
def Keys.Names (keys : Keys) (endpoint : Endpoint) (tag : String) : Prop :=
  endpoint.query = .reference tag ∨ ⟨endpoint.group, endpoint.query, tag⟩ ∈ keys.fields

/-- The tags of a pair name the fields of two sides. -/
def Keys.NamesBoth (keys : Keys) (ends : Endpoint × Endpoint) (tags : String × String) : Prop :=
  keys.Names ends.1 tags.1 ∧ keys.Names ends.2 tags.2

variable {reserved : List String} {IsSide : Endpoint → Prop} {keys later : Keys}

theorem Keys.NamesBoth.mono {ends : Endpoint × Endpoint} {tags : String × String}
    (both : keys.NamesBoth ends tags) (kept : keys.fields ⊆ later.fields) :
    later.NamesBoth ends tags :=
  ⟨both.1.imp_right (kept ·), both.2.imp_right (kept ·)⟩

theorem Keys.Sound.mono {fewer : List String} (sound : keys.Sound reserved IsSide)
    (subset : fewer ⊆ reserved) : keys.Sound fewer IsSide where
  reserves name member := sound.reserves name (subset member)
  inUse := sound.inUse
  nodup := sound.nodup
  fresh field member listed := sound.fresh field member (subset listed)
  sides := sound.sides
  resembles := sound.resembles

/-- A new field with a tag that is not in use. -/
theorem Keys.Sound.add {field : KeyField} (sound : keys.Sound reserved IsSide)
    (new : field.tag ∉ keys.names) (isSide : IsSide ⟨field.group, field.query⟩)
    (resembles : ∃ used, field.tag = freshName used (keyBase field.query)) :
    Keys.Sound reserved IsSide ⟨field.tag :: keys.names, keys.fields ++ [field]⟩ where
  reserves name member := List.mem_cons_of_mem _ (sound.reserves name member)
  inUse := by
    intro other member
    rcases List.mem_append.mp member with old | last
    · exact List.mem_cons_of_mem _ (sound.inUse other old)
    · exact List.mem_singleton.mp last ▸ List.mem_cons_self
  nodup := by
    rw [List.map_append, List.map_singleton, ← List.concat_eq_append]
    refine sound.nodup.concat fun taken => ?_
    obtain ⟨other, old, same⟩ := List.mem_map.mp taken
    exact new (same ▸ sound.inUse other old)
  fresh := by
    intro other member
    rcases List.mem_append.mp member with old | last
    · exact sound.fresh other old
    · exact List.mem_singleton.mp last ▸ fun reserved => new (sound.reserves _ reserved)
  sides := by
    intro other member
    rcases List.mem_append.mp member with old | last
    · exact sound.sides other old
    · exact List.mem_singleton.mp last ▸ isSide
  resembles := by
    intro other member
    rcases List.mem_append.mp member with old | last
    · exact sound.resembles other old
    · exact List.mem_singleton.mp last ▸ resembles

theorem keyTag_ok {endpoint : Endpoint} {tag : String} (sound : keys.Sound reserved IsSide)
    (isSide : IsSide endpoint) (planned : (keyTag endpoint).run keys = .ok (tag, later)) :
    later.Sound reserved IsSide ∧ keys.fields ⊆ later.fields ∧ later.Names endpoint tag := by
  obtain ⟨group, query⟩ := endpoint
  rw [keyTag] at planned
  split at planned
  · rename_i name reference
    obtain ⟨rfl, rfl⟩ := Prod.mk.inj (Except.ok.inj planned)
    exact ⟨sound, fun _ => id, .inl reference⟩
  · split at planned
    · exact nomatch planned
    · dsimp only at planned
      simp only [StateT.run_bind, StateT.run_get, pure_bind] at planned
      split at planned
      · rename_i field found
        obtain ⟨rfl, rfl⟩ := Prod.mk.inj (Except.ok.inj planned)
        have same := List.find?_some found
        simp only [Bool.and_eq_true, decide_eq_true_eq] at same
        refine ⟨sound, fun _ => id, .inr ?_⟩
        rw [← same.1, ← same.2]
        exact List.mem_of_find?_eq_some found
      · obtain ⟨rfl, rfl⟩ := Prod.mk.inj (Except.ok.inj planned)
        have new := freshName_not_mem keys.names (keyBase query)
        let field : KeyField := ⟨group, query, freshName keys.names (keyBase query)⟩
        have sound : Keys.Sound reserved IsSide ⟨field.tag :: keys.names, keys.fields ++ [field]⟩ :=
          sound.add new isSide ⟨keys.names, rfl⟩
        refine ⟨sound, ?_, .inr ?_⟩
        · exact List.subset_append_left _ _
        · exact List.mem_append_right _ List.mem_cons_self

/-! ## Planned joins -/

/-- The sides of equalities are sides. -/
def AreSides (IsSide : Endpoint → Prop) (equalities : List CrossEquality) : Prop :=
  ∀ equality ∈ equalities, IsSide equality.left ∧ IsSide equality.right

/-- The sides of an equality that links a group to an earlier one are those of the
equality. -/
theorem CrossEquality.orient_eq_some {equality : CrossEquality} {group : Nat}
    {joined new : Endpoint} (oriented : equality.orient group = some (joined, new)) :
    joined.group < group ∧ new.group = group ∧
      (joined = equality.left ∧ new = equality.right ∨
        joined = equality.right ∧ new = equality.left) := by
  rw [orient] at oriented
  split at oriented
  · rename_i here
    obtain ⟨rfl, rfl⟩ := Prod.mk.inj (Option.some.inj oriented)
    exact ⟨here.2, here.1, .inl ⟨rfl, rfl⟩⟩
  · split at oriented
    · rename_i here
      obtain ⟨rfl, rfl⟩ := Prod.mk.inj (Option.some.inj oriented)
      exact ⟨here.2, here.1, .inr ⟨rfl, rfl⟩⟩
    · exact nomatch oriented

/-- **The join that adds a group takes up the equalities that link it to earlier ones.** -/
theorem planJoin_ok {group : Nat} : {equalities others : List CrossEquality} →
    {tags : List (String × String)} → {keys later : Keys} → keys.Sound reserved IsSide →
      AreSides IsSide equalities →
        (planJoin group equalities).run keys = .ok ((tags, others), later) →
          later.Sound reserved IsSide ∧ keys.fields ⊆ later.fields ∧
            others = equalities.filter (fun equality => (equality.orient group).isNone) ∧
            List.Forall₂ later.NamesBoth (equalities.filterMap (·.orient group)) tags
  | [], others, tags, keys, later, sound, sides, planned => by
      obtain ⟨same, rfl⟩ := Prod.mk.inj (Except.ok.inj planned)
      obtain ⟨rfl, rfl⟩ := Prod.mk.inj same
      exact ⟨sound, fun _ => id, rfl, .nil⟩
  | equality :: rest, others, tags, keys, later, sound, sides, planned => by
      have restSides : AreSides IsSide rest :=
        fun other member => sides other (List.mem_cons_of_mem _ member)
      obtain ⟨leftSide, rightSide⟩ := sides equality List.mem_cons_self
      rw [planJoin] at planned
      cases oriented : equality.orient group with
      | some ends =>
          obtain ⟨joined, new⟩ := ends
          rw [oriented] at planned
          obtain ⟨⟨joinedTag, first⟩, planJoined, planned⟩ := bind_eq_ok planned
          obtain ⟨⟨newTag, second⟩, planNew, planned⟩ := bind_eq_ok planned
          obtain ⟨⟨⟨restTags, restOthers⟩, last⟩, planRest, planned⟩ := bind_eq_ok planned
          obtain ⟨same, rfl⟩ := Prod.mk.inj (Except.ok.inj planned)
          obtain ⟨rfl, rfl⟩ := Prod.mk.inj same
          have isSides : IsSide joined ∧ IsSide new := by
            rcases (CrossEquality.orient_eq_some oriented).2.2 with ⟨rfl, rfl⟩ | ⟨rfl, rfl⟩
            · exact ⟨leftSide, rightSide⟩
            · exact ⟨rightSide, leftSide⟩
          obtain ⟨soundFirst, keptFirst, namesJoined⟩ := keyTag_ok sound isSides.1 planJoined
          obtain ⟨soundSecond, keptSecond, namesNew⟩ := keyTag_ok soundFirst isSides.2 planNew
          obtain ⟨soundLast, keptLast, rfl, namesRest⟩ :=
            planJoin_ok soundSecond restSides planRest
          have both : second.NamesBoth (joined, new) (joinedTag, newTag) :=
            ⟨namesJoined.imp_right (keptSecond ·), namesNew⟩
          refine ⟨soundLast, List.Subset.trans (List.Subset.trans keptFirst keptSecond) keptLast,
            ?_, ?_⟩
          · simp [oriented]
          · simp only [List.filterMap_cons, oriented]
            exact .cons (both.mono keptLast) namesRest
      | none =>
          rw [oriented] at planned
          obtain ⟨⟨⟨restTags, restOthers⟩, last⟩, planRest, planned⟩ := bind_eq_ok planned
          obtain ⟨same, rfl⟩ := Prod.mk.inj (Except.ok.inj planned)
          obtain ⟨rfl, rfl⟩ := Prod.mk.inj same
          obtain ⟨soundLast, keptLast, rfl, namesRest⟩ := planJoin_ok sound restSides planRest
          refine ⟨soundLast, keptLast, ?_, ?_⟩
          · simp [oriented]
          · simp only [List.filterMap_cons, oriented]
            exact namesRest

/-- An equality links one group to earlier ones. -/
theorem CrossEquality.orient_unique {equality : CrossEquality} {group other : Nat}
    {ends : Endpoint × Endpoint} (oriented : equality.orient group = some ends)
    (different : other ≠ group) : equality.orient other = none := by
  cases also : equality.orient other with
  | none => rfl
  | some otherEnds =>
      obtain ⟨below, here, sides⟩ := orient_eq_some oriented
      obtain ⟨otherBelow, there, otherSides⟩ := orient_eq_some also
      rcases sides with ⟨same, other⟩ | ⟨same, other⟩ <;>
        rcases otherSides with ⟨also, too⟩ | ⟨also, too⟩ <;>
        simp only [same, other, also, too] at * <;> omega

/-- **Every join takes up the equalities of its group**, and what is left links none of
the groups to earlier ones. -/
theorem planJoins_ok : {count group : Nat} → {equalities leftovers : List CrossEquality} →
    {joins : List (List (String × String))} → {keys later : Keys} →
      keys.Sound reserved IsSide → AreSides IsSide equalities →
        (planJoins group count equalities).run keys = .ok ((joins, leftovers), later) →
          later.Sound reserved IsSide ∧ keys.fields ⊆ later.fields ∧
            (∀ equality ∈ leftovers, equality ∈ equalities ∧
              ∀ added ∈ List.range' group count, equality.orient added = none) ∧
            List.Forall₂ (fun added tags =>
                List.Forall₂ later.NamesBoth (equalities.filterMap (·.orient added)) tags)
              (List.range' group count) joins
  | 0, group, equalities, leftovers, joins, keys, later, sound, sides, planned => by
      obtain ⟨same, rfl⟩ := Prod.mk.inj (Except.ok.inj planned)
      obtain ⟨rfl, rfl⟩ := Prod.mk.inj same
      exact ⟨sound, fun _ => id, fun equality member => ⟨member, nofun⟩, .nil⟩
  | count + 1, group, equalities, leftovers, joins, keys, later, sound, sides, planned => by
      rw [planJoins] at planned
      obtain ⟨⟨⟨tags, others⟩, middle⟩, planFirst, planned⟩ := bind_eq_ok planned
      obtain ⟨⟨⟨restJoins, restLeftovers⟩, last⟩, planRest, planned⟩ := bind_eq_ok planned
      obtain ⟨same, rfl⟩ := Prod.mk.inj (Except.ok.inj planned)
      obtain ⟨rfl, rfl⟩ := Prod.mk.inj same
      obtain ⟨soundMiddle, keptMiddle, rfl, namesFirst⟩ := planJoin_ok sound sides planFirst
      have restSides : AreSides IsSide
          (equalities.filter fun equality => (equality.orient group).isNone) :=
        fun other member => sides other (List.mem_of_mem_filter member)
      obtain ⟨soundLast, keptLast, left, namesRest⟩ := planJoins_ok soundMiddle restSides planRest
      refine ⟨soundLast, List.Subset.trans keptMiddle keptLast, fun equality member => ?_, ?_⟩
      · obtain ⟨listed, unlinked⟩ := left equality member
        obtain ⟨listed, first⟩ := List.mem_filter.mp listed
        refine ⟨listed, fun added within => ?_⟩
        rw [List.range'_succ, List.mem_cons] at within
        rcases within with rfl | within
        · exact Option.isNone_iff_eq_none.mp first
        · exact unlinked added within
      · rw [List.range'_succ]
        refine .cons (namesFirst.imp fun _ _ both => both.mono keptLast) ?_
        refine (List.forall₂_and_left _ _).mpr ⟨fun _ member => member, namesRest⟩ |>.imp ?_
        rintro added tags ⟨within, names⟩
        rw [List.filterMap_filter] at names
        have same : (fun equality : CrossEquality =>
            if (equality.orient group).isNone then equality.orient added else none) =
            (·.orient added) := by
          funext equality
          cases oriented : equality.orient group with
          | none => rfl
          | some ends =>
              have later := (List.mem_range'_1.mp within).1
              exact (CrossEquality.orient_unique oriented (by omega)).symm
        rwa [same] at names

end JoinPlan

end TreeQuery
