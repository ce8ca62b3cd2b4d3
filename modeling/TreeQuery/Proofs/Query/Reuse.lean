import TreeQuery.Proofs.Query.Calls
import TreeQuery.Proofs.Query.Twins

/-!
# Using an evaluator again

An evaluator that has answered calls before differs from a new one in the nodes that it has
constructed and in the documents that it has kept.  Neither shows: over a table of documents
that does not change, every query ends on both with the same failure, or with items that
are of the same kind and equal by value one by one and identical at the same positions
(`Evaluator.reuse_unobservable`).

The two evaluations go through a world in which at first only the nodes of documents match,
each with itself.
-/

set_option autoImplicit false

namespace TreeQuery

open Evaluation

variable {resolver library : Library}

/-! ## What can be observed -/

/-- What can be observed of two sequences is the same: the kinds and values of their items,
and at which positions they are identical. -/
structure LooksLike {Home : Type} (left right : View Home) (items others : List (Node Home)) :
    Prop where
  kinds : others.map (·.kind right) = items.map (·.kind left)
  valueKeys : others.map (·.valueKey right) = items.map (·.valueKey left)
  identical : ∀ i j : Nat, others[i]? = others[j]? ↔ items[i]? = items[j]?

/-- Two computations of evaluators end alike for an observer: with the same failure, or with
sequences of which the same can be observed. -/
def Session.SameOutcome (first second : EStateM.Result Failure Evaluator (List Item)) : Prop :=
  match first, second with
  | .ok items later, .ok others otherLater => LooksLike later.view otherLater.view items others
  | .error failure _, .error otherFailure _ => otherFailure = failure
  | _, _ => False

/-! ## Nodes of documents -/

section Documents

variable {Home : Type} {within : Home → Prop} {left right : View Home}

/-- The nodes in arenas that two views have in common match themselves. -/
theorem Matching.common (agree : left.AgreeOn within right) (formed : left.WellFormed) :
    Matching left right fun node other =>
      within node.home ∧ node.Exists left ∧ node = other where
  alike := by
    rintro node _ ⟨inside, present, rfl⟩
    have still : node.Exists right := by
      rw [Node.Exists, agree node.home inside]
      exact present
    exact ⟨present, still, node.kind_agree agree inside, node.fragment_agree agree inside⟩
  children := by
    rintro node _ ⟨inside, present, rfl⟩
    rw [node.children_agree agree inside]
    exact List.forall₂_same.mpr fun child listed =>
      ⟨Within.of_home inside node.home_of_mem_children child listed,
        Node.exists_of_mem_children formed listed, rfl⟩
  attributes := by
    rintro node _ ⟨inside, present, rfl⟩
    rw [node.attributes_agree agree inside]
    exact List.forall₂_same.mpr fun given listed =>
      ⟨Within.of_home inside node.home_of_mem_attributes given listed,
        Node.exists_of_mem_attributes formed listed, rfl⟩
  left_unique := by
    rintro node twin other ⟨_, _, rfl⟩ ⟨_, _, rfl⟩
    rfl
  right_unique := by
    rintro node other twin ⟨_, _, rfl⟩ ⟨_, _, rfl⟩
    rfl

theorem Matching.common_upward (agree : left.AgreeOn within right) (formed : left.WellFormed) :
    Upward left right fun node other =>
      within node.home ∧ node.Exists left ∧ node = other := by
  rintro node _ ⟨inside, present, rfl⟩
  rw [node.parent?_agree agree inside]
  cases found : node.parent? left with
  | none => exact .none
  | some parent =>
      have home : within parent.home := (Node.home_of_parent? found).symm ▸ inside
      exact .some ⟨home, Node.exists_of_parent? formed present found, rfl⟩

end Documents

/-- Two evaluations that have constructed whatever they have, with the nodes of documents
matched to themselves. -/
def World.start (documents : library.WellFormed) {left right : Arena}
    (formedLeft : left.WellFormed) (formedRight : right.WellFormed) : World library :=
  have agree : (library.view left).AgreeOn (· ≠ .constructed) (library.view right) := by
    intro home isDocument
    cases home with
    | constructed => exact absurd rfl isDocument
    | document name => rfl
  { left, right, documents, formedLeft, formedRight
    -- what either has constructed before has no counterpart
    Same := fun item other =>
      item.home ≠ .constructed ∧ item.Exists (library.view left) ∧ item = other
    matching := .common agree (documents.view formedLeft)
    upward := Matching.common_upward agree (documents.view formedLeft)
    shared := fun _ _ present => ⟨nofun, present, rfl⟩ }

/-! ## Observing matching items -/

/-- Of matching items the same can be observed. -/
theorem World.looksLike (world : World library) {items others : List Item}
    (same : Level.exact.Holds world items others) :
    LooksLike world.viewLeft world.viewRight items others where
  kinds := map_eq_of_forall₂ same fun same => (world.matching.alike same).kind
  valueKeys := map_eq_of_forall₂ same fun same =>
    (world.matching.alike same).valueKey_eq world.viewLeft_wellFormed world.viewRight_wellFormed
  identical := by
    intro i j
    have first := rel_getElem? same i
    have second := rel_getElem? same j
    generalize items[i]? = item at first
    generalize others[i]? = other at first
    generalize items[j]? = twin at second
    generalize others[j]? = copy at second
    cases first with
    | none => cases second <;> simp
    | some first =>
        cases second with
        | none => simp
        | some second => simp [world.matching.eq_iff first second]

/-- What evaluators have yielded looks alike if it does over all documents that can be found. -/
theorem LooksLike.kept {first second : Evaluator} {items others : List Item}
    (looksLike : LooksLike ((first.standing resolver).view first.constructed)
      ((second.standing resolver).view second.constructed) items others)
    (known : first.Knows items) (otherKnown : second.Knows others) :
    LooksLike first.view second.view items others := by
  have agree := (first.agreeOn_standing resolver).view first.constructed
  have otherAgree := (second.agreeOn_standing resolver).view second.constructed
  constructor
  case kinds =>
    have same := looksLike.kinds
    rwa [map_kind_agree agree known, map_kind_agree otherAgree otherKnown] at same
  case valueKeys =>
    have same := looksLike.valueKeys
    rwa [map_valueKey_agree agree known, map_valueKey_agree otherAgree otherKnown] at same
  case identical => exact looksLike.identical

/-! ## Two evaluators -/

namespace Evaluator

/-- Evaluators with the same documents to find answer a query alike. -/
theorem sameOutcome (documents : library.WellFormed) {first second : Evaluator}
    (serves : first.standing resolver = library) (alsoServes : second.standing resolver = library)
    (formed : first.constructed.WellFormed) (alsoFormed : second.constructed.WellFormed)
    (title : String → String) (query : Query) :
    Session.SameOutcome (Session.evaluate ⟨title, resolver⟩ query [] first)
      (Session.evaluate ⟨title, resolver⟩ query [] second) := by
  have follows : Session.Follows resolver Knows first
      (Session.evaluate ⟨title, resolver⟩ query []) ((query.titled title).evaluate library []) :=
    Session.evaluate_follows query serves .nil
  have alsoFollows : Session.Follows resolver Knows second
      (Session.evaluate ⟨title, resolver⟩ query []) ((query.titled title).evaluate library []) :=
    Session.evaluate_follows query alsoServes .nil
  have simulates : Simulates (World.start documents formed alsoFormed)
      ((query.titled title).evaluate library []) ((query.titled title).evaluate library [])
      Level.exact.Holds := (query.titled title).evaluate_matches .nil
  cases simulates with
  | @ok items others world evaluated alsoEvaluated _ same =>
      obtain ⟨later, run, left, grows, known⟩ := follows.of_ok evaluated
      obtain ⟨otherLater, otherRun, right, otherGrows, otherKnown⟩ :=
        alsoFollows.of_ok alsoEvaluated
      have looksLike := world.looksLike same
      rw [World.viewLeft, World.viewRight, ← left, ← right] at looksLike
      rw [run, otherRun]
      have standing : LooksLike ((later.standing resolver).view later.constructed)
          ((otherLater.standing resolver).view otherLater.constructed) items others := by
        rw [grows.standing, otherGrows.standing, serves, alsoServes]
        exact looksLike
      exact standing.kept known otherKnown
  | error evaluated alsoEvaluated =>
      obtain ⟨_, run⟩ := follows.of_error evaluated
      obtain ⟨_, otherRun⟩ := alsoFollows.of_error alsoEvaluated
      rw [run, otherRun]
      exact rfl

/-- Calls with the same documents to find leave the standing documents as they are. -/
theorem standing_afterAll (title : String → String) (resolver : Library) (calls : List Call)
    (evaluator : Evaluator) :
    (evaluator.afterAll title (calls.map (resolver, ·))).standing resolver =
      evaluator.standing resolver := by
  induction calls generalizing evaluator with
  | nil => rfl
  | cons call rest ih =>
      exact (ih _).trans (call.follows title resolver evaluator).grows_after.standing

/-- **Using an evaluator again cannot be observed.**  Whatever documents a program has created,
whatever texts and documents stand under names, one document under several names included, and
whatever calls an evaluator has answered before, a query ends on it as on a new one. -/
theorem reuse_unobservable (creations : List Creation) (table : List (String × Holding))
    (calls : List Call) (query : Query) :
    let resolver := (Collection.empty.createAll creations).resolver table
    let used := Evaluator.new.afterAll resolver.title (calls.map (resolver.library, ·))
    Session.SameOutcome (Session.evaluate resolver query [] used)
      (Session.evaluate resolver query [] .new) := by
  intro resolver used
  have documents : resolver.library.WellFormed :=
    ((Collection.Reachable.empty.createAll creations).shelf table).wellFormed
  have standing := standing_afterAll resolver.title resolver.library calls .new
  have formed : used.constructed.WellFormed :=
    ((new.extends_afterAll resolver.title _).develops.extends_wellFormed .empty).1
  exact sameOutcome documents standing rfl formed .empty resolver.title query

end Evaluator

end TreeQuery
