import Mathlib.Data.List.Forall2
import Mathlib.Data.List.Nodup
import Mathlib.Data.List.Zip
import Mathlib.Logic.Relation

/-!
# Lists related member by member

How the relation of two lists member by member passes through the operations that
evaluation is made of, and what is left of it when order and number do not count.
-/

set_option autoImplicit false

namespace TreeQuery

variable {α β γ : Type} {Related : α → β → Prop} {first : List α} {second : List β}

theorem mem_of_lookup {entries : List (String × α)} {name : String} {value : α}
    (found : entries.lookup name = some value) : (name, value) ∈ entries := by
  obtain ⟨before, after, rfl, _⟩ := List.lookup_eq_some_iff.mp found
  exact List.mem_append_right _ List.mem_cons_self

/-- Changing what stands under names changes what is found under them. -/
theorem lookup_map_named (entries : List (String × α)) (f : String → α → β) (name : String) :
    (entries.map fun entry => (entry.1, f entry.1 entry.2)).lookup name =
      (entries.lookup name).map (f name) := by
  induction entries with
  | nil => rfl
  | cons entry rest ih =>
      rw [List.map_cons, List.lookup_cons, List.lookup_cons]
      by_cases same : name = entry.1
      · rw [same, beq_self_eq_true]
        rfl
      · rw [beq_false_of_ne same]
        exact ih

/-- Lists with the same images are related if their members with one image are. -/
theorem forall₂_of_map_eq {f : α → γ} {g : β → γ}
    (same : first.map f = second.map g)
    (related : ∀ a ∈ first, ∀ b ∈ second, f a = g b → Related a b) :
    List.Forall₂ Related first second := by
  induction first generalizing second with
  | nil =>
      rw [List.map_nil, eq_comm, List.map_eq_nil_iff] at same
      exact same ▸ .nil
  | cons a rest ih =>
      cases second with
      | nil => exact absurd same (List.cons_ne_nil _ _)
      | cons b others =>
          rw [List.map_cons, List.map_cons, List.cons.injEq] at same
          refine .cons (related a List.mem_cons_self b List.mem_cons_self same.1) ?_
          exact ih same.2 fun a member b other =>
            related a (List.mem_cons_of_mem _ member) b (List.mem_cons_of_mem _ other)

/-- The first members that satisfy a condition are related if the condition treats related
members alike. -/
theorem rel_find? {p : α → Bool} {q : β → Bool}
    (related : List.Forall₂ Related first second)
    (same : ∀ {a b}, Related a b → q b = p a) :
    Option.Rel Related (first.find? p) (second.find? q) := by
  induction related with
  | nil => exact .none
  | @cons a b _ _ head _ ih =>
      rw [List.find?_cons, List.find?_cons, same head]
      cases p a with
      | true => exact .some head
      | false => exact ih

theorem rel_comp {Also : β → γ → Prop} {one : Option α} {two : Option β} {three : Option γ}
    (related : Option.Rel Related one two) (also : Option.Rel Also two three) :
    Option.Rel (Relation.Comp Related Also) one three := by
  cases related with
  | none =>
      cases also
      exact .none
  | some head =>
      cases also with
      | some next => exact .some ⟨_, head, next⟩

theorem forall₂_trans {Also : β → γ → Prop} {Both : α → γ → Prop} {third : List γ}
    (related : List.Forall₂ Related first second) (also : List.Forall₂ Also second third)
    (both : ∀ {a b c}, Related a b → Also b c → Both a c) : List.Forall₂ Both first third := by
  induction related generalizing third with
  | nil =>
      cases also
      exact .nil
  | cons head _ ih =>
      cases also with
      | cons next rest => exact .cons (both head next) (ih rest)

/-- Related lists have the same images if related members do. -/
theorem map_eq_of_forall₂ {f : α → γ} {g : β → γ} (related : List.Forall₂ Related first second)
    (same : ∀ {a b}, Related a b → g b = f a) : second.map g = first.map f := by
  induction related with
  | nil => rfl
  | cons head _ ih => rw [List.map_cons, List.map_cons, same head, ih]

/-- Conditions that treat related members alike keep them at the same places. -/
theorem forall₂_filter {p : α → Bool} {q : β → Bool} (related : List.Forall₂ Related first second)
    (same : ∀ {a b}, Related a b → q b = p a) :
    List.Forall₂ Related (first.filter p) (second.filter q) :=
  List.rel_filter (fun a b head => by show p a ↔ q b; rw [same head]) related

/-- A list without repetitions is paired with at most one member at every place. -/
theorem eq_of_mem_zip {a : α} {b c : β} (unique : first.Nodup) (paired : (a, b) ∈ first.zip second)
    (also : (a, c) ∈ first.zip second) : b = c := by
  obtain ⟨i, inside, here⟩ := List.mem_iff_getElem.mp paired
  obtain ⟨j, inside', there⟩ := List.mem_iff_getElem.mp also
  rw [List.getElem_zip, Prod.mk.injEq] at here there
  rw [List.length_zip, Nat.lt_min] at inside inside'
  have same : i = j := (unique.getElem_inj_iff).mp (here.1.trans there.1.symm)
  subst same
  exact here.2.symm.trans there.2

/-- Of all combinations those are kept whose parts pass. -/
theorem filter_combinations (combine : α → β → γ) (passes : γ → Bool) {p : α → Bool}
    {q : α → β → Bool}
    (splits : ∀ a ∈ first, ∀ b ∈ second, passes (combine a b) = (p a && q a b)) :
    (first.flatMap fun a => second.map (combine a)).filter passes =
      (first.filter p).flatMap fun a => (second.filter (q a)).map (combine a) := by
  induction first with
  | nil => rfl
  | cons a rest ih =>
      have head := splits a List.mem_cons_self
      rw [List.flatMap_cons, List.filter_append, List.filter_map,
        ih fun other member => splits other (List.mem_cons_of_mem _ member)]
      cases passed : p a with
      | true =>
          rw [List.filter_cons_of_pos passed, List.flatMap_cons]
          congr 2
          exact List.filter_congr fun b member => by simpa [passed] using head b member
      | false =>
          rw [List.filter_cons_of_neg (by simp [passed]), List.filter_eq_nil_iff.mpr,
            List.map_nil, List.nil_append]
          exact fun b member => by simpa [passed] using head b member

/-- A list consists of its members at all positions. -/
theorem filterMap_range_getElem? (members : List α) :
    (List.range members.length).filterMap (members[·]?) = members := by
  have found : (List.range members.length).map (members[·]?) = members.map some :=
    List.ext_getElem (by simp) fun i inside inside' => by simp
  have collected := congrArg (List.filterMap id) found
  rw [List.filterMap_map, List.filterMap_map] at collected
  exact collected.trans List.filterMap_some

/-- Repeated members are dropped at the same places if related members are repeated
together. -/
theorem rel_eraseDups [DecidableEq α] [DecidableEq β]
    (unique : ∀ {a b c d}, Related a b → Related c d → (b = d ↔ a = c))
    (related : List.Forall₂ Related first second) :
    List.Forall₂ Related first.eraseDups second.eraseDups := by
  generalize size : first.length = length
  induction length using Nat.strongRecOn generalizing first second with
  | ind length ih =>
      cases related with
      | nil => exact .nil
      | @cons a b rest others head tail =>
          rw [List.eraseDups_cons, List.eraseDups_cons]
          refine .cons head (ih _ ?_ ?_ rfl)
          · rw [← size, List.length_cons]
            exact Nat.lt_succ_of_le (List.length_filter_le _ _)
          · exact List.rel_filter (fun c d same => by simp [unique same head]) tail

/-- Lists that go with one list go with it together. -/
theorem forall₂_zip_right {Also : α → γ → Prop} {third : List γ}
    (related : List.Forall₂ Related first second) (also : List.Forall₂ Also first third) :
    List.Forall₂ (fun a (pair : β × γ) => Related a pair.1 ∧ Also a pair.2) first
      (second.zip third) := by
  induction related generalizing third with
  | nil => exact .nil
  | cons head _ ih =>
      cases also with
      | cons next rest => exact .cons ⟨head, next⟩ (ih rest)

theorem rel_getElem? (related : List.Forall₂ Related first second) (i : Nat) :
    Option.Rel Related first[i]? second[i]? := by
  induction related generalizing i with
  | nil => exact .none
  | cons head _ ih =>
      cases i with
      | zero => exact .some head
      | succ i => exact ih i

theorem mapIdx_eq_of_forall₂ {f : Nat → α → γ} {g : Nat → β → γ}
    (related : List.Forall₂ Related first second)
    (same : ∀ i {a b}, Related a b → g i b = f i a) : second.mapIdx g = first.mapIdx f := by
  induction related generalizing f g with
  | nil => rfl
  | cons head _ ih => rw [List.mapIdx_cons, List.mapIdx_cons, same 0 head, ih fun i => same (i + 1)]

/-! ## Lists related as sets -/

/-- Every member of either list is related to some member of the other. -/
structure Gathered {α β : Type} (Related : α → β → Prop) (first : List α) (second : List β) :
    Prop where
  left : ∀ a ∈ first, ∃ b ∈ second, Related a b
  right : ∀ b ∈ second, ∃ a ∈ first, Related a b

namespace Gathered

theorem nil : Gathered Related [] [] := ⟨nofun, nofun⟩

theorem cons {a : α} {b : β} (head : Related a b) (rest : Gathered Related first second) :
    Gathered Related (a :: first) (b :: second) where
  left := by
    refine List.forall_mem_cons.mpr ⟨⟨b, List.mem_cons_self, head⟩, fun other member => ?_⟩
    obtain ⟨also, listed, related⟩ := rest.left other member
    exact ⟨also, List.mem_cons_of_mem _ listed, related⟩
  right := by
    refine List.forall_mem_cons.mpr ⟨⟨a, List.mem_cons_self, head⟩, fun other member => ?_⟩
    obtain ⟨also, listed, related⟩ := rest.right other member
    exact ⟨also, List.mem_cons_of_mem _ listed, related⟩

/-- Lists related member by member are related as sets. -/
theorem of_forall₂ (related : List.Forall₂ Related first second) :
    Gathered Related first second := by
  induction related with
  | nil => exact .nil
  | cons head _ ih => exact ih.cons head

theorem append {more : List α} {others : List β} (gathered : Gathered Related first second)
    (also : Gathered Related more others) :
    Gathered Related (first ++ more) (second ++ others) where
  left := by
    refine List.forall_mem_append.mpr ⟨fun a member => ?_, fun a member => ?_⟩
    · obtain ⟨b, listed, related⟩ := gathered.left a member
      exact ⟨b, List.mem_append_left _ listed, related⟩
    · obtain ⟨b, listed, related⟩ := also.left a member
      exact ⟨b, List.mem_append_right _ listed, related⟩
  right := by
    refine List.forall_mem_append.mpr ⟨fun b member => ?_, fun b member => ?_⟩
    · obtain ⟨a, listed, related⟩ := gathered.right b member
      exact ⟨a, List.mem_append_left _ listed, related⟩
    · obtain ⟨a, listed, related⟩ := also.right b member
      exact ⟨a, List.mem_append_right _ listed, related⟩

theorem trans {Also : β → γ → Prop} {Both : α → γ → Prop} {third : List γ}
    (gathered : Gathered Related first second) (also : Gathered Also second third)
    (both : ∀ {a b c}, Related a b → Also b c → Both a c) : Gathered Both first third where
  left := by
    intro a member
    obtain ⟨b, listed, related⟩ := gathered.left a member
    obtain ⟨c, last, further⟩ := also.left b listed
    exact ⟨c, last, both related further⟩
  right := by
    intro c member
    obtain ⟨b, listed, further⟩ := also.right c member
    obtain ⟨a, first, related⟩ := gathered.right b listed
    exact ⟨a, first, both related further⟩

theorem imp {Weaker : α → β → Prop} (gathered : Gathered Related first second)
    (implies : ∀ {a b}, Related a b → Weaker a b) : Gathered Weaker first second where
  left := by
    intro a member
    obtain ⟨b, listed, related⟩ := gathered.left a member
    exact ⟨b, listed, implies related⟩
  right := by
    intro b member
    obtain ⟨a, listed, related⟩ := gathered.right b member
    exact ⟨a, listed, implies related⟩

theorem isEmpty_eq (gathered : Gathered Related first second) :
    second.isEmpty = first.isEmpty := by
  cases first with
  | nil =>
      refine List.isEmpty_iff.mpr (List.eq_nil_iff_forall_not_mem.mpr fun b member => ?_)
      obtain ⟨a, listed, _⟩ := gathered.right b member
      exact nomatch listed
  | cons a rest =>
      obtain ⟨b, listed, _⟩ := gathered.left a List.mem_cons_self
      exact List.isEmpty_eq_false_iff_exists_mem.mpr ⟨b, listed⟩

/-- A condition that treats related members alike holds of some member of both or of none. -/
theorem any_eq {p : α → Bool} {q : β → Bool} (gathered : Gathered Related first second)
    (same : ∀ {a b}, Related a b → q b = p a) : second.any q = first.any p := by
  rw [Bool.eq_iff_iff, List.any_eq_true, List.any_eq_true]
  constructor
  · rintro ⟨b, member, holds⟩
    obtain ⟨a, listed, related⟩ := gathered.right b member
    exact ⟨a, listed, same related ▸ holds⟩
  · rintro ⟨a, member, holds⟩
    obtain ⟨b, listed, related⟩ := gathered.left a member
    exact ⟨b, listed, (same related).trans holds⟩

end Gathered

end TreeQuery
