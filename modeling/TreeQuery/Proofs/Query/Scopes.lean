import TreeQuery.Proofs.Query.Walks
import TreeQuery.Proofs.Query.Worlds
import TreeQuery.Proofs.Query.Yields

/-!
# Scopes side by side

Two evaluations of one query end alike if their scopes bind the same names to related items.
Here are the parts of that which do not depend on the form of the query: scopes that are
related at given levels stay so in larger worlds, document paths reach the same nodes on
both sides, and joins of alike tuples construct matching tuples.
-/

set_option autoImplicit false

namespace TreeQuery

open Evaluation

variable {library : Library} {world : World library}

/-- The levels of the items that variables stand for, innermost binding first. -/
abbrev Levels : Type := List (String × Level)

/-- Two scopes bind the same names to related items. -/
inductive Scope.Related (world : World library) : Levels → Scope → Scope → Prop where
  | nil : Scope.Related world [] [] []
  | cons {levels : Levels} {scope other : Scope} {level : Level} {items others : List Item}
      (name : String) (holds : level.Holds world items others)
      (rest : Scope.Related world levels scope other) :
      Scope.Related world ((name, level) :: levels) ((name, items) :: scope)
        ((name, others) :: other)

namespace Scope.Related

variable {levels : Levels} {scope other : Scope}

theorem grow {later : World library} (related : Scope.Related world levels scope other)
    (grows : world.Grows later) : Scope.Related later levels scope other := by
  induction related with
  | nil => exact .nil
  | cons name holds _ ih => exact .cons name (holds.grow grows) ih

/-- Items that one name stands for in related scopes. -/
inductive Values (world : World library) : Option Level → Option (List Item) →
    Option (List Item) → Prop where
  | unbound : Values world none none none
  | bound {level : Level} {items others : List Item} (holds : level.Holds world items others) :
      Values world (some level) (some items) (some others)

theorem lookup (related : Scope.Related world levels scope other) (name : String) :
    Values world (levels.lookup name) (scope.lookup name) (other.lookup name) := by
  induction related with
  | nil => exact .unbound
  | cons bound holds _ ih =>
      rw [List.lookup_cons, List.lookup_cons, List.lookup_cons]
      cases name == bound with
      | true => exact .bound holds
      | false => exact ih

/-- The items of the second scope exist. -/
theorem exist_right (related : Scope.Related world levels scope other) :
    other.Exist world.viewRight := by
  induction related with
  | nil => exact .nil
  | cons name holds _ ih =>
      refine ih.cons name fun item member => ?_
      obtain ⟨_, _, alike⟩ := holds.gathered.right item member
      exact alike.exists_right

/-- A variable with a level is bound in the second scope. -/
theorem binds_right (related : Scope.Related world levels scope other) {name : String}
    (bound : (levels.lookup name).isSome = true) : other.Binds name := by
  have values := related.lookup name
  rw [Scope.Binds]
  generalize levels.lookup name = level at bound values
  generalize scope.lookup name = given at values
  generalize other.lookup name = found at values
  cases values with
  | unbound => exact absurd bound Bool.false_ne_true
  | bound => exact ⟨_, rfl⟩

end Scope.Related

/-! ## Documents -/

/-- A document path reaches the same nodes on both sides. -/
theorem Simulates.documentPath (path : DocumentPath) :
    Simulates world (Evaluation.documentPath library path) (Evaluation.documentPath library path)
      Level.exact.Holds := by
  rw [Evaluation.documentPath, documentNode]
  cases library path.document with
  | error failure => exact .throw failure
  | ok document =>
      have root : Simulates world (Pure.pure ⟨.document path.document, 0⟩)
          (Pure.pure ⟨.document path.document, 0⟩) fun later => later.Same :=
        .pure (world.shared path.document 0
          (world.viewLeft_wellFormed (.document path.document)).size_pos)
      refine root.bind fun {later item other} _ same => .observe ?_
      have context : Level.exact.Holds later [item] [other] := .cons same .nil
      exact context.step rfl path.axis

/-! ## Joins -/

theorem Node.Alike.tupleKey_eq {left right : View Home} (formedLeft : left.WellFormed)
    (formedRight : right.WellFormed) {tuple other : Item}
    (alike : Node.Alike left right tuple other) (tag : String) :
    other.tupleKey right tag = tuple.tupleKey left tag := by
  rw [Node.tupleKey_eq formedRight, Node.tupleKey_eq formedLeft, alike.fragment]

/-- Tuples match as their counterparts do. -/
theorem matchTuples_alike {left right : View Home} (formedLeft : left.WellFormed)
    (formedRight : right.WellFormed) (order : KeyOrder)
    {items others moreItems moreOthers : List Item}
    (alike : List.Forall₂ (Node.Alike left right) items others)
    (also : List.Forall₂ (Node.Alike left right) moreItems moreOthers)
    (leftTags rightTags : List String) :
    matchTuples right order others moreOthers leftTags rightTags =
      matchTuples left order items moreItems leftTags rightTags := by
  have keys : ∀ (side : Side) (tags : List String) {tuples copies : List Item},
      List.Forall₂ (Node.Alike left right) tuples copies →
        tupleKeys right order side tags copies = tupleKeys left order side tags tuples := by
    intro side tags tuples copies alike
    refine mapIdx_eq_of_forall₂ alike fun position {tuple copy} alike => ?_
    simp only [alike.tupleKey_eq formedLeft formedRight]
  rw [matchTuples, matchTuples, keys .left leftTags alike, keys .right rightTags also,
    alike.length_eq, also.length_eq]

/-- Tuples joined at one pair of positions match. -/
theorem Simulates.joinTuple {items others moreItems moreOthers : List Item}
    (alike : Level.copied.Holds world items others)
    (also : Level.copied.Holds world moreItems moreOthers) (pair : Nat × Nat) :
    Simulates world (Evaluation.joinTuple library items moreItems pair)
      (Evaluation.joinTuple library others moreOthers pair) Level.exact.Holds := by
  have one := rel_getElem? alike pair.1
  have two := rel_getElem? also pair.2
  rw [Evaluation.joinTuple, Evaluation.joinTuple]
  generalize items[pair.1]? = tuple at one
  generalize others[pair.1]? = copy at one
  generalize moreItems[pair.2]? = partner at two
  generalize moreOthers[pair.2]? = copyPartner at two
  cases one with
  | none => exact .pure .nil
  | @some tuple copy tuples =>
      cases two with
      | none => exact .pure .nil
      | @some partner copyPartner partners =>
          have fields : Simulates world
              (Evaluation.observe library fun view =>
                tuple.children view ++ partner.children view)
              (Evaluation.observe library fun view =>
                copy.children view ++ copyPartner.children view)
              Level.copied.Holds :=
            .observe (List.rel_append
              (tuples.children world.viewLeft_wellFormed world.viewRight_wellFormed)
              (partners.children world.viewLeft_wellFormed world.viewRight_wellFormed))
          refine fields.bind fun _ alike => ?_
          exact (Simulates.constructElement tupleTag alike).bind fun _ same =>
            .pure (.cons same .nil)

/-- Joins of alike tuples construct matching tuples. -/
theorem Simulates.joinTuples (order : KeyOrder) {items others moreItems moreOthers : List Item}
    (alike : Level.copied.Holds world items others)
    (also : Level.copied.Holds world moreItems moreOthers) (leftTags rightTags : List String) :
    Simulates world (Evaluation.joinTuples library order items moreItems leftTags rightTags)
      (Evaluation.joinTuples library order others moreOthers leftTags rightTags)
      Level.exact.Holds := by
  rw [Evaluation.joinTuples, Evaluation.joinTuples]
  have matched := matchTuples_alike world.viewLeft_wellFormed world.viewRight_wellFormed order
    alike also leftTags rightTags
  have pairs : Simulates world
      (Evaluation.observe library fun view =>
        matchTuples view order items moreItems leftTags rightTags)
      (Evaluation.observe library fun view =>
        matchTuples view order others moreOthers leftTags rightTags)
      fun _ pairs others => pairs = others := .observe matched.symm
  refine pairs.bind fun {later positions _} grows same => ?_
  subst same
  have each : ∀ {now : World library} {pair other : Nat × Nat}, later.Grows now → pair = other →
      Simulates now (Evaluation.joinTuple library items moreItems pair)
        (Evaluation.joinTuple library others moreOthers other) Level.exact.Holds := by
    intro now pair other further same
    subst same
    exact joinTuple (Level.Holds.grow alike (grows.trans further))
      (Level.Holds.grow also (grows.trans further)) pair
  exact Simulates.collect (fun further same => each further same)
    (List.forall₂_same.mpr fun _ _ => rfl)

end TreeQuery
