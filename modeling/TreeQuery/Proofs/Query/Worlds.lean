import TreeQuery.Proofs.Path.Selection
import TreeQuery.Proofs.Query.Evaluation

/-!
# Two evaluations side by side

Two evaluations over one library are compared through a matching between their nodes: a
world consists of the arenas that the two have constructed so far and of a matching, parents
included, that keeps every document as it is.  A world grows when nodes are constructed on
either side and more nodes are matched.

Evaluations that start in a world are alike (`Simulates`) when they fail with the same
failure, or both succeed and end in a larger world in which their values are related.
How closely sequences are related is a level: their nodes can be matched by the world, by
a matching of their own that says nothing about parents, just be alike one by one, or be
alike when order and number do not count.
-/

set_option autoImplicit false

namespace TreeQuery

open Evaluation

variable {α β : Type} {library : Library}

/-! ## Worlds -/

/-- The arenas of two evaluations with a matching of their nodes. -/
structure World (library : Library) where
  left : Arena
  right : Arena
  Same : Item → Item → Prop
  documents : library.WellFormed
  formedLeft : left.WellFormed
  formedRight : right.WellFormed
  matching : Matching (library.view left) (library.view right) Same
  upward : Upward (library.view left) (library.view right) Same
  shared : ∀ (name : String) (slot : Nat),
    (⟨.document name, slot⟩ : Item).Exists (library.view left) →
      Same ⟨.document name, slot⟩ ⟨.document name, slot⟩

namespace World

variable (world : World library)

/-- The nodes of the first evaluation. -/
def viewLeft : View Home := library.view world.left

/-- The nodes of the second evaluation. -/
def viewRight : View Home := library.view world.right

theorem viewLeft_wellFormed : world.viewLeft.WellFormed :=
  world.documents.view world.formedLeft

theorem viewRight_wellFormed : world.viewRight.WellFormed :=
  world.documents.view world.formedRight

/-- Nodes have been constructed and matched. -/
structure Grows (before after : World library) : Prop where
  left : before.left.Extends after.left
  right : before.right.Extends after.right
  same : ∀ {item other : Item}, before.Same item other → after.Same item other

namespace Grows

variable {before middle after : World library}

theorem refl (world : World library) : world.Grows world := ⟨.refl _, .refl _, id⟩

theorem trans (first : before.Grows middle) (second : middle.Grows after) : before.Grows after :=
  ⟨first.left.trans second.left, first.right.trans second.right, second.same ∘ first.same⟩

theorem viewLeft (grows : before.Grows after) : before.viewLeft.Extends after.viewLeft :=
  before.documents.extends before.formedLeft after.formedLeft grows.left

theorem viewRight (grows : before.Grows after) : before.viewRight.Extends after.viewRight :=
  before.documents.extends before.formedRight after.formedRight grows.right

end Grows

/-- Two evaluations that have constructed the same, with every node matched to itself. -/
def identity (documents : library.WellFormed) {arena : Arena} (formed : arena.WellFormed) :
    World library where
  left := arena
  right := arena
  Same item other := item.Exists (library.view arena) ∧ item = other
  documents := documents
  formedLeft := formed
  formedRight := formed
  matching := .identity (documents.view formed)
  upward := Matching.identity_upward (documents.view formed)
  shared _ _ inside := ⟨inside, rfl⟩

/-- The world after the arenas have been added to, with no more nodes matched. -/
def extend {left right : Arena} (formedLeft : left.WellFormed) (formedRight : right.WellFormed)
    (extendLeft : world.left.Extends left) (extendRight : world.right.Extends right) :
    World library where
  left := left
  right := right
  Same := world.Same
  documents := world.documents
  formedLeft := formedLeft
  formedRight := formedRight
  matching := world.matching.extend
    (world.documents.extends world.formedLeft formedLeft extendLeft)
    (world.documents.extends world.formedRight formedRight extendRight)
  upward := world.matching.extend_upward world.upward
    (world.documents.extends world.formedLeft formedLeft extendLeft)
    (world.documents.extends world.formedRight formedRight extendRight)
  shared name slot inside := world.shared name slot inside

theorem grows_extend {left right : Arena} (formedLeft : left.WellFormed)
    (formedRight : right.WellFormed) (extendLeft : world.left.Extends left)
    (extendRight : world.right.Extends right) :
    world.Grows (world.extend formedLeft formedRight extendLeft extendRight) :=
  ⟨extendLeft, extendRight, id⟩

end World

/-! ## Levels -/

/-- How closely the nodes of two sequences are related. -/
inductive Level where
  | exact
  | rooted
  | copied
  | gathered
  deriving DecidableEq

namespace Level

/-- The level of two sequences one after the other: roots of several matchings are no longer
rooted in one. -/
def append : Level → Level → Level
  | .exact, .exact => .exact
  | .gathered, _ | _, .gathered => .gathered
  | _, _ => .copied

/-- The level of what is collected over several visits. -/
def collected : Level → Level
  | .exact => .exact
  | .gathered => .gathered
  | _ => .copied

/-- The level of each single item of two sequences, if they go together item by item. -/
def single? : Level → Option Level
  | .exact => some .exact
  | .rooted | .copied => some .rooted
  | .gathered => none

/-- The level of what a path reaches.  There is none for a path that asks for the parents of
copies; and copies of one node are one node no more, so a path can meet them several times. -/
def step? (path : Path) : Level → Option Level
  | .exact => some .exact
  | .rooted => if path.usesParent then none else some .rooted
  | .copied | .gathered => if path.usesParent then none else some .gathered

theorem append_collected (level : Level) : level.append level.collected = level.collected := by
  cases level <;> rfl

theorem collected_collected (level : Level) : level.collected.collected = level.collected := by
  cases level <;> rfl

theorem append_ne_gathered {first second : Level} (one : first ≠ .gathered)
    (two : second ≠ .gathered) : first.append second ≠ .gathered := by
  cases first <;> cases second <;> first | contradiction | exact nofun

theorem collected_ne_gathered {level : Level} (ordered : level ≠ .gathered) :
    level.collected ≠ .gathered := by
  cases level <;> first | contradiction | exact nofun

end Level

/-- Two sequences are related: by the matching of the world, by some matching that need not
relate parents, by being alike item by item, or by having alike items. -/
def Level.Holds (level : Level) (world : World library) (items others : List Item) : Prop :=
  match level with
  | .exact => List.Forall₂ world.Same items others
  | .rooted => ∃ Related, Matching world.viewLeft world.viewRight Related ∧
      List.Forall₂ Related items others
  | .copied => List.Forall₂ (Node.Alike world.viewLeft world.viewRight) items others
  | .gathered => Gathered (Node.Alike world.viewLeft world.viewRight) items others

namespace Level

variable {world before after : World library} {level : Level} {items others : List Item}

/-- Related sequences are alike item by item, unless only their sets of items are related. -/
theorem Holds.copied (holds : level.Holds world items others) (ordered : level ≠ .gathered) :
    Level.copied.Holds world items others := by
  cases level with
  | exact => exact alike_of_matching world.matching holds
  | rooted =>
      obtain ⟨Related, matching, related⟩ := holds
      exact alike_of_matching matching related
  | copied => exact holds
  | gathered => exact absurd rfl ordered

/-- Whatever the level, related sequences have alike items. -/
theorem Holds.gathered (holds : level.Holds world items others) :
    Level.gathered.Holds world items others := by
  cases level with
  | exact | rooted | copied => exact Gathered.of_forall₂ (holds.copied nofun)
  | gathered => exact holds

/-- Related sequences stay related. -/
theorem Holds.grow (holds : level.Holds before items others) (grows : before.Grows after) :
    level.Holds after items others := by
  have stays : ∀ {item other}, Node.Alike before.viewLeft before.viewRight item other →
      Node.Alike after.viewLeft after.viewRight item other :=
    fun alike => alike.extend grows.viewLeft grows.viewRight
  cases level with
  | exact => exact holds.imp fun _ _ => grows.same
  | rooted =>
      obtain ⟨Related, matching, related⟩ := holds
      exact ⟨Related, matching.extend grows.viewLeft grows.viewRight, related⟩
  | copied => exact holds.imp fun _ _ => stays
  | gathered => exact holds.imp stays

theorem Holds.nil : level.Holds world [] [] := by
  cases level with
  | exact | copied => exact .nil
  | rooted => exact ⟨world.Same, world.matching, .nil⟩
  | gathered => exact .nil

theorem Holds.append {first second : Level} {moreItems moreOthers : List Item}
    (before : first.Holds world items others) (after : second.Holds world moreItems moreOthers) :
    (first.append second).Holds world (items ++ moreItems) (others ++ moreOthers) := by
  by_cases unordered : first = .gathered ∨ second = .gathered
  · have gathered : first.append second = .gathered := by
      rcases unordered with rfl | rfl
      · rfl
      · cases first <;> rfl
    rw [gathered]
    exact Gathered.append before.gathered after.gathered
  · obtain ⟨firstOrdered, secondOrdered⟩ := not_or.mp unordered
    have copied := List.rel_append (before.copied firstOrdered) (after.copied secondOrdered)
    cases first with
    | exact =>
        cases second with
        | exact => exact List.rel_append before after
        | rooted | copied => exact copied
        | gathered => exact absurd rfl secondOrdered
    | rooted | copied =>
        cases second with
        | exact | rooted | copied => exact copied
        | gathered => exact absurd rfl secondOrdered
    | gathered => exact absurd rfl firstOrdered

/-- Sequences that are related are so at the level of a longer sequence. -/
theorem Holds.weaken (holds : level.Holds world items others) (also : Level) :
    (level.append also).Holds world items others := by
  cases level with
  | exact =>
      cases also with
      | exact => exact holds
      | rooted | copied => exact holds.copied nofun
      | gathered => exact holds.gathered
  | rooted | copied =>
      cases also with
      | exact | rooted | copied => exact holds.copied nofun
      | gathered => exact holds.gathered
  | gathered => exact holds

theorem Holds.collected (holds : level.Holds world items others) :
    level.collected.Holds world items others := by
  cases level with
  | exact | copied | gathered => exact holds
  | rooted => exact holds.copied nofun

/-- Every item of a sequence is related to its counterpart. -/
theorem Holds.single {each : Level} (holds : level.Holds world items others)
    (single : level.single? = some each) :
    List.Forall₂ (fun item other => each.Holds world [item] [other]) items others := by
  cases level with
  | exact =>
      obtain rfl := Option.some.inj single
      exact holds.imp fun _ _ same => .cons same .nil
  | rooted =>
      obtain rfl := Option.some.inj single
      obtain ⟨Related, matching, related⟩ := holds
      exact related.imp fun _ _ same => ⟨Related, matching, .cons same .nil⟩
  | copied =>
      obtain rfl := Option.some.inj single
      refine holds.imp fun item other alike => ?_
      exact ⟨Inside world.viewLeft world.viewRight item other,
        Inside.matching world.viewLeft_wellFormed world.viewRight_wellFormed alike,
        .cons .top .nil⟩
  | gathered => exact nomatch single

/-- A path that continues related sequences keeps them related. -/
theorem Holds.step {reached : Level} {path : Path} (holds : level.Holds world items others)
    (steps : level.step? path = some reached) (axis : Axis) :
    reached.Holds world (path.selectAlong world.viewLeft axis items)
      (path.selectAlong world.viewRight axis others) := by
  cases level with
  | exact =>
      obtain rfl := Option.some.inj steps
      exact path.selectAlong_matching world.matching world.viewLeft_wellFormed
        world.viewRight_wellFormed (fun _ => world.upward) axis holds
  | rooted =>
      rw [Level.step?] at steps
      split at steps
      · exact nomatch steps
      · rename_i below
        obtain rfl := Option.some.inj steps
        obtain ⟨Related, matching, related⟩ := holds
        exact ⟨Related, matching, path.selectAlong_matching matching world.viewLeft_wellFormed
          world.viewRight_wellFormed (fun uses => absurd uses below) axis related⟩
  | copied | gathered =>
      have gathered := Holds.gathered holds
      rw [Level.step?] at steps
      split at steps
      · exact nomatch steps
      · rename_i below
        obtain rfl := Option.some.inj steps
        exact path.selectAlong_gathered world.viewLeft_wellFormed world.viewRight_wellFormed
          (by simpa using below) axis gathered

end Level

/-! ## Simulation -/

/-- Two evaluations end alike: with the same failure, or with related values in a larger
world. -/
inductive Simulates (world : World library) (first : Evaluation α) (second : Evaluation β)
    (related : World library → α → β → Prop) : Prop where
  | ok {value : α} {other : β} {later : World library} :
      first world.left = .ok value later.left → second world.right = .ok other later.right →
        world.Grows later → related later value other → Simulates world first second related
  | error {failure : Failure} {left right : Arena} :
      first world.left = .error failure left → second world.right = .error failure right →
        Simulates world first second related

namespace Simulates

variable {γ δ : Type} {world : World library} {first : Evaluation α} {second : Evaluation β}
variable {related : World library → α → β → Prop} {also : World library → γ → δ → Prop}

theorem pure {value : α} {other : β} (holds : related world value other) :
    Simulates world (Pure.pure value) (Pure.pure other) related :=
  .ok rfl rfl (.refl _) holds

theorem throw (failure : Failure) :
    Simulates world (MonadExcept.throw failure : Evaluation α)
      (MonadExcept.throw failure : Evaluation β) related :=
  .error rfl rfl

theorem bind {next : α → Evaluation γ} {otherNext : β → Evaluation δ}
    (simulates : Simulates world first second related)
    (continues : ∀ {later : World library} {value : α} {other : β}, world.Grows later →
      related later value other → Simulates later (next value) (otherNext other) also) :
    Simulates world (first >>= next) (second >>= otherNext) also := by
  cases simulates with
  | error run otherRun => exact .error (bind_error run next) (bind_error otherRun otherNext)
  | ok run otherRun grows holds =>
      have left := bind_ok run next
      have right := bind_ok otherRun otherNext
      cases continues grows holds with
      | error rerun otherRerun => exact .error (left.trans rerun) (right.trans otherRerun)
      | ok rerun otherRerun further holds =>
          exact .ok (left.trans rerun) (right.trans otherRerun) (grows.trans further) holds

theorem mono {weaker : World library → α → β → Prop}
    (simulates : Simulates world first second related)
    (implies : ∀ {later value other}, world.Grows later → related later value other →
      weaker later value other) :
    Simulates world first second weaker := by
  cases simulates with
  | error run otherRun => exact .error run otherRun
  | ok run otherRun grows holds => exact .ok run otherRun grows (implies grows holds)

theorem observe {look : View Home → α} {otherLook : View Home → β}
    (holds : related world (look world.viewLeft) (otherLook world.viewRight)) :
    Simulates world (Evaluation.observe library look) (Evaluation.observe library otherLook)
      related :=
  .ok rfl rfl (.refl _) holds

end Simulates

/-! ## Construction -/

/-- A node inside a new node is not an old node. -/
theorem Evaluation.IsNew.not_old {before after : Arena} {item other node counterpart : Item}
    {view : View Home} (isNew : IsNew library before after item) (documents : library.WellFormed)
    (inside : Inside (library.view after) view item other node counterpart) :
    ¬node.Exists (library.view before) := by
  obtain ⟨home, after⟩ := inside.not_before (documents.view isNew.formed)
  rw [isNew.eq_next] at home after
  obtain ⟨nodeHome, slot⟩ := node
  dsimp only at home after
  subst home
  exact Nat.not_lt.mpr after

namespace World

variable (world : World library) {left right : Arena} {item other : Item}

/-- The world after both evaluations have constructed a node, with the nodes inside the two
new nodes matched. -/
def construct (isNew : IsNew library world.left left item)
    (otherNew : IsNew library world.right right other)
    (alike : Node.Alike (library.view left) (library.view right) item other) : World library where
  left := left
  right := right
  Same node counterpart := world.Same node counterpart ∨
    Inside (library.view left) (library.view right) item other node counterpart
  documents := world.documents
  formedLeft := isNew.formed
  formedRight := otherNew.formed
  matching := by
    let extended := world.extend isNew.formed otherNew.formed isNew.extend otherNew.extend
    refine extended.matching.union (Inside.matching (world.documents.view isNew.formed)
      (world.documents.view otherNew.formed) alike) ?_
    intro node counterpart twin copy same inside
    have old := world.matching.alike same
    constructor
    · rintro rfl
      exact isNew.not_old world.documents inside old.exists_left
    · rintro rfl
      exact otherNew.not_old world.documents inside.symm old.exists_right
  upward :=
    let extended := world.extend isNew.formed otherNew.formed isNew.extend otherNew.extend
    Matching.union_upward extended.upward (Inside.upward (world.documents.view isNew.formed)
      (world.documents.view otherNew.formed) isNew.parent? otherNew.parent?)
  shared name slot inside := .inl (world.shared name slot inside)

theorem grows_construct (isNew : IsNew library world.left left item)
    (otherNew : IsNew library world.right right other)
    (alike : Node.Alike (library.view left) (library.view right) item other) :
    world.Grows (world.construct isNew otherNew alike) :=
  ⟨isNew.extend, otherNew.extend, .inl⟩

end World

namespace Simulates

variable {world : World library}

theorem constructText (value : String) :
    Simulates world (Evaluation.constructText value) (Evaluation.constructText value)
      fun later item other => later.Same item other := by
  obtain ⟨item, left, run, isNew, reads⟩ := constructText_new world.formedLeft value
  obtain ⟨other, right, otherRun, otherNew, otherReads⟩ :=
    constructText_new world.formedRight value
  have alike := reads.alike otherReads (world.documents.view isNew.formed)
    (world.documents.view otherNew.formed)
  refine .ok ?_ ?_ (world.grows_construct isNew otherNew alike) (.inr .top)
  · exact run
  · exact otherRun

/-- **Elements around alike content match.** -/
theorem constructElement (name : String) {items others : List Item}
    (alike : Level.copied.Holds world items others) :
    Simulates world (Evaluation.constructElement library name items)
      (Evaluation.constructElement library name others)
      fun later item other => later.Same item other := by
  have contents : others.flatMap (·.content (library.view world.right)) =
      items.flatMap (·.content (library.view world.left)) := by
    have same := map_eq_of_forall₂ alike fun alike =>
      alike.content_eq world.viewLeft_wellFormed world.viewRight_wellFormed
    rw [List.flatMap_def, List.flatMap_def]
    exact congrArg List.flatten same
  obtain ⟨item, left, run, isNew, reads⟩ :=
    constructElement_new world.documents world.formedLeft name items
  obtain ⟨other, right, otherRun, otherNew, otherReads⟩ :=
    constructElement_new world.documents world.formedRight name others
  rw [contents] at otherReads
  have alikeNew := reads.alike otherReads (world.documents.view isNew.formed)
    (world.documents.view otherNew.formed)
  refine .ok ?_ ?_ (world.grows_construct isNew otherNew alikeNew) (.inr .top)
  · exact run
  · exact otherRun

end Simulates

/-! ## Sequences -/

namespace Simulates

variable {world : World library}

/-- Visits of related members collect related sequences. -/
theorem collect {Member : α → β → Prop} {level : Level}
    {visit : α → Evaluation (List Item)} {otherVisit : β → Evaluation (List Item)}
    (visits : ∀ {later a b}, world.Grows later → Member a b →
      Simulates later (visit a) (otherVisit b) level.Holds) {members : List α} {others : List β}
    (related : List.Forall₂ Member members others) :
    Simulates world (Evaluation.collect visit members) (Evaluation.collect otherVisit others)
      level.collected.Holds := by
  induction related generalizing world with
  | nil => exact .pure .nil
  | cons head _ ih =>
      refine (visits (.refl _) head).bind fun grows found => ?_
      refine (ih fun further => visits (grows.trans further)).bind fun further others => ?_
      have both := Level.Holds.append (found.grow further) others
      rw [Level.append_collected] at both
      exact .pure both

/-- Visits of related members that agree on their answers end with one answer. -/
theorem any {Member : α → β → Prop} {visit : α → Evaluation Bool}
    {otherVisit : β → Evaluation Bool}
    (visits : ∀ {later a b}, world.Grows later → Member a b →
      Simulates later (visit a) (otherVisit b) fun _ yes answer => yes = answer)
    {members : List α} {others : List β} (related : List.Forall₂ Member members others) :
    Simulates world (Evaluation.any visit members) (Evaluation.any otherVisit others)
      fun _ yes answer => yes = answer := by
  induction related generalizing world with
  | nil => exact .pure rfl
  | cons head _ ih =>
      refine (visits (.refl _) head).bind fun {_ yes _} grows same => ?_
      subst same
      cases yes with
      | true => exact .pure rfl
      | false =>
          exact ih fun further => visits (grows.trans further)

end Simulates

end TreeQuery
