import TreeQuery.Proofs.Query.Worlds

/-!
# Three evaluations

If a first evaluation ends like a second and the second like a third, started where the
second was, then the first ends like the third.  The worlds are put together by composing
their matchings.
-/

set_option autoImplicit false

namespace TreeQuery

open Evaluation

variable {library : Library}

namespace World

variable {first second : World library}

/-- The first evaluation of one world and the second of another that meets it. -/
def comp (first second : World library) (meet : first.right = second.left) : World library where
  left := first.left
  right := second.right
  Same := Relation.Comp first.Same second.Same
  documents := first.documents
  formedLeft := first.formedLeft
  formedRight := second.formedRight
  matching := first.matching.comp (meet ▸ second.matching)
  upward := Matching.comp_upward first.upward (meet ▸ second.upward)
  shared name slot inside :=
    ⟨_, first.shared name slot inside, second.shared name slot inside⟩

/-- Sequences that are related by way of a third. -/
theorem holds_comp (meet : first.right = second.left) {level also : Level}
    {items others last : List Item} (related : level.Holds first items others)
    (further : also.Holds second others last) :
    (level.append also).Holds (first.comp second meet) items last := by
  have middle : second.viewLeft = first.viewRight := congrArg library.view meet.symm
  have gathered : Level.gathered.Holds (first.comp second meet) items last := by
    have next := further.gathered
    rw [Level.Holds, middle] at next
    exact related.gathered.trans next fun alike other => alike.trans other
  have copied : level ≠ .gathered → also ≠ .gathered →
      Level.copied.Holds (first.comp second meet) items last := by
    intro ordered alsoOrdered
    have next := further.copied alsoOrdered
    rw [Level.Holds, middle] at next
    exact forall₂_trans (related.copied ordered) next fun alike other => alike.trans other
  cases level with
  | exact =>
      cases also with
      | exact => exact forall₂_trans related further fun same other => ⟨_, same, other⟩
      | rooted | copied => exact copied nofun nofun
      | gathered => exact gathered
  | rooted | copied =>
      cases also with
      | exact | rooted | copied => exact copied nofun nofun
      | gathered => exact gathered
  | gathered => exact gathered

end World

namespace Simulates

variable {world : World library}

/-- **Ending alike is transitive.** -/
theorem trans {level also : Level} {one two three : Evaluation (List Item)}
    (simulates : Simulates world one two level.Holds)
    (further : Simulates (World.identity world.documents world.formedRight) two three also.Holds) :
    Simulates world one three (level.append also).Holds := by
  cases simulates with
  | error run otherRun =>
      cases further with
      | error rerun lastRun =>
          obtain ⟨rfl, _⟩ := EStateM.Result.error.inj (otherRun.symm.trans rerun)
          exact .error run lastRun
      | ok rerun _ _ _ => exact nomatch otherRun.symm.trans rerun
  | @ok _ _ first run otherRun grows related =>
      cases further with
      | error rerun _ => exact nomatch otherRun.symm.trans rerun
      | @ok _ _ second rerun lastRun further also =>
          obtain ⟨rfl, meet⟩ := EStateM.Result.ok.inj (otherRun.symm.trans rerun)
          have composed : world.Grows (first.comp second meet) :=
            ⟨grows.left, further.right, fun {item other} same => ⟨other, grows.same same,
              further.same ⟨(world.matching.alike same).exists_right, rfl⟩⟩⟩
          have left : one world.left = .ok _ (first.comp second meet).left := run
          have right : three world.right = .ok _ (first.comp second meet).right := lastRun
          exact .ok left right composed (World.holds_comp meet related also)

end Simulates

end TreeQuery
