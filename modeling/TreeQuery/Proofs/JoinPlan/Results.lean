import TreeQuery.Proofs.JoinPlan.Tuples
import TreeQuery.Proofs.Query.Worlds

/-!
# Results over tuples

A result that has been checked can be computed from the tuples of a join: where the
expression reads a variable, its projection goes to the field of that name and finds a copy
of the node there.  The two evaluations end alike (`project_simulates`).  How closely their
values are related depends on the form of the result: what is read from a variable of the
expression is related at the root and below, what is constructed or read from a variable
around the expression exactly, and a sequence of copies node by node only.
-/

set_option autoImplicit false

namespace TreeQuery.JoinPlan

open Evaluation

variable {library : Library}

/-! ## Fields of tuples -/

/-- The path from a tuple to what a field holds. -/
def fieldPath (name : String) : Path := .step (.tag name) .child .wildcard

/-- The path leads to the only node in the only field of its name. -/
theorem selectAlong_fieldPath_of_single {view : View Home} {item field held : Item} {name : String}
    (named : (item.children view).filter (·.isElementNamed view name) = [field])
    (holds : field.children view = [held]) :
    (fieldPath name).selectAlong view .child [item] = [held] := by
  rw [Path.selectAlong, fieldPath, Path.select, Path.select, Path.select, Axis.expand,
    Axis.expand, List.flatMap_singleton, named, List.flatMap_singleton, holds]
  rfl

/-- The field of a variable leads to a copy of the node that the variable stands for. -/
theorem selectAlong_fieldPath {view after : View Home} {scope : Scope}
    {fields : List (String × Query)} {item node : Item} {name : String} {query : Query}
    (formed : view.WellFormed) (still : after.WellFormed)
    (reads : item.Reads after (tupleFragment view scope fields))
    (distinct : (fields.map (·.1)).Nodup) (listed : (name, query) ∈ fields)
    (walked : query.walk view scope = [node]) (content : node.IsContent view)
    (inside : node.Exists view) :
    ∃ copy, (fieldPath name).selectAlong after .child [item] = [copy] ∧
      Node.Alike view after node copy := by
  have fragments : (item.children after).map (·.fragment after) =
      fields.map (fieldFragment view scope) := by
    rw [Node.map_fragment_children still, reads.fragment]
    rfl
  have named : ((item.children after).filter (·.isElementNamed after name)).map
      (·.fragment after) = [fieldFragment view scope (name, query)] := by
    have same : (item.children after).filter (·.isElementNamed after name) =
        (item.children after).filter ((·.isNamed name) ∘ (·.fragment after)) :=
      List.filter_congr fun field listed => (Node.isNamed_fragment still listed name).symm
    have asFields : (fun fragment : Fragment => fragment.isNamed name) ∘
        fieldFragment view scope = fun field => decide (field.1 = name) := rfl
    rw [same, ← List.filter_map, fragments, List.filter_map, asFields,
      filter_field distinct listed, List.map_singleton]
  obtain ⟨field, fieldEq, fieldFragmentEq⟩ := List.map_eq_singleton_iff.mp named
  have held : (field.children after).map (·.fragment after) = [node.fragment view] := by
    rw [Node.map_fragment_children still, fieldFragmentEq, fieldFragment, walked]
    rfl
  obtain ⟨copy, copyEq, copyFragment⟩ := List.map_eq_singleton_iff.mp held
  have copyListed : copy ∈ field.children after := by
    rw [copyEq]
    exact List.mem_cons_self
  refine ⟨copy, ?_, inside, Node.exists_of_mem_children still copyListed, ?_, copyFragment⟩
  · exact selectAlong_fieldPath_of_single fieldEq copyEq
  · have kind : (node.fragment view).kind = node.kind view :=
      (formed node.home).kind_fragment content.kind_ne
    rw [Node.kind_of_mem_children still copyListed, copyFragment, kind]

/-! ## Levels of results -/

/-- How closely the value of a result is related to that of its projection. -/
def resultLevel (boundNames : List String) : Query → Level
  | .reference name => if boundNames.contains name then .rooted else .exact
  | .parenthesized inner => resultLevel boundNames inner
  | .step base _ _ => resultLevel boundNames base
  | .pair left right => (resultLevel boundNames left).append (resultLevel boundNames right)
  | .element _ _ => .exact
  | _ => .copied

/-- No step of a result is off a sequence of copies. -/
theorem resultLevel_ne_copied (boundNames : List String) : (query : Query) →
    allowsStep query = true → checkResult query = .ok () → resultLevel boundNames query ≠ .copied
  | .reference name, _, _ => by
      rw [resultLevel]
      split <;> exact nofun
  | .parenthesized inner, allowed, checked =>
      resultLevel_ne_copied boundNames inner allowed checked
  | .element _ _, _, _ => nofun
  | .step base _ path, _, checked => by
      rw [checkResult] at checked
      split at checked
      · exact nomatch checked
      · split at checked
        · exact nomatch checked
        · rename_i allowed
          exact resultLevel_ne_copied boundNames base (by simpa using allowed) checked

theorem resultLevel_ne_gathered (boundNames : List String) : (query : Query) →
    resultLevel boundNames query ≠ .gathered
  | .reference name => by
      rw [resultLevel]
      split <;> exact nofun
  | .parenthesized inner => resultLevel_ne_gathered boundNames inner
  | .step base _ _ => resultLevel_ne_gathered boundNames base
  | .pair left right => Level.append_ne_gathered (resultLevel_ne_gathered boundNames left)
      (resultLevel_ne_gathered boundNames right)
  | .element _ _ | .constant _ | .document _ | .join _ _ _ _ | .letIn _ _ | .flwr _ _ _ _ => nofun

/-! ## Simulation -/

/-- A row and a tuple that stands for it, as two evaluations see them: every variable of the
expression has a field in the tuple that leads to a copy of its node, and other variables
have the same value. -/
structure StandsFor (world : World library) (boundNames : List String) (outer row : Scope)
    (tuple : String) (item : Item) : Prop where
  bound : ∀ name ∈ boundNames, ∃ node copy, (row ++ outer).lookup name = some [node] ∧
    (fieldPath name).selectAlong world.viewRight .child [item] = [copy] ∧
    Node.Alike world.viewLeft world.viewRight node copy
  unbound : ∀ name ∉ boundNames, (row ++ outer).lookup name = outer.lookup name
  shared : ∀ name items, outer.lookup name = some items → ∀ node ∈ items, world.Same node node
  existing : item.Exists world.viewRight

theorem StandsFor.grow {before after : World library} {boundNames : List String}
    {outer row : Scope} {tuple : String} {item : Item}
    (stands : StandsFor before boundNames outer row tuple item) (grows : before.Grows after) :
    StandsFor after boundNames outer row tuple item where
  bound := by
    intro name listed
    obtain ⟨node, copy, found, selected, alike⟩ := stands.bound name listed
    refine ⟨node, copy, found, ?_, alike.extend grows.viewLeft grows.viewRight⟩
    rw [← selected]
    exact (Path.selectAlong_extend grows.viewRight _ _
      fun node member => List.mem_singleton.mp member ▸ stands.existing).1
  unbound := stands.unbound
  shared name items found node member := grows.same (stands.shared name items found node member)
  existing := stands.existing.extend grows.viewRight

/-- A translation that changes a result at its references only. -/
structure KeepsForm (translate : Query → Query) : Prop where
  parenthesized : ∀ inner, translate (.parenthesized inner) = .parenthesized (translate inner)
  element : ∀ name body, translate (.element name body) = .element name (translate body)
  pair : ∀ left right, translate (.pair left right) = .pair (translate left) (translate right)
  step : ∀ base axis path, translate (.step base axis path) = .step (translate base) axis path

/-- **A result and its translation end alike** if its references do, in every world that the
evaluation can lead to. -/
theorem result_simulates {translate : Query → Query} (keeps : KeepsForm translate)
    {boundNames : List String} {scope other : Scope} :
    (query : Query) → checkResult query = .ok () → ∀ {world : World library},
      (∀ name ∈ query.names, ∀ {later : World library}, world.Grows later →
        Simulates later ((Query.reference name).evaluate library scope)
          ((translate (.reference name)).evaluate library other)
          (resultLevel boundNames (.reference name)).Holds) →
        Simulates world (query.evaluate library scope) ((translate query).evaluate library other)
          (resultLevel boundNames query).Holds
  | .reference name, _, world, references => by
      refine references name ?_ (.refl world)
      rw [Query.names]
      exact List.mem_cons_self
  | .parenthesized inner, checked, world, references => by
      rw [Query.evaluate, keeps.parenthesized, Query.evaluate, resultLevel]
      exact result_simulates keeps inner checked references
  | .element name body, checked, world, references => by
      rw [Query.evaluate, keeps.element, Query.evaluate, resultLevel]
      refine (result_simulates keeps body checked references).bind fun grows alike => ?_
      refine (Simulates.constructElement name
        (alike.copied (resultLevel_ne_gathered _ _))).bind fun further same => ?_
      exact .pure (.cons same .nil)
  | .pair left right, checked, world, references => by
      rw [checkResult] at checked
      obtain ⟨_, checkedLeft, checkedRight⟩ := bind_eq_ok checked
      rw [Query.names] at references
      rw [Query.evaluate, keeps.pair, Query.evaluate, resultLevel]
      refine (result_simulates keeps left checkedLeft fun name listed =>
        references name (List.mem_append_left _ listed)).bind fun grows first => ?_
      refine (result_simulates keeps right checkedRight fun name listed _ further =>
        references name (List.mem_append_right _ listed) (grows.trans further)).bind
          fun further second => ?_
      exact .pure ((first.grow further).append second)
  | .step base axis path, checked, world, references => by
      rw [checkResult] at checked
      split at checked
      · exact nomatch checked
      · rename_i below
        split at checked
        · exact nomatch checked
        · rename_i allowed
          rw [Query.evaluate, keeps.step, Query.evaluate, resultLevel]
          refine (result_simulates keeps base checked references).bind fun grows related => ?_
          have steps : (resultLevel boundNames base).step? path =
              some (resultLevel boundNames base) := by
            have roots := resultLevel_ne_copied boundNames base (by simpa using allowed) checked
            cases level : resultLevel boundNames base with
            | exact => rfl
            | rooted => rw [Level.step?, if_neg below]
            | copied => exact absurd level roots
            | gathered => exact absurd level (resultLevel_ne_gathered _ _)
          exact .observe (related.step steps axis)

theorem keepsForm_project (tuple : String) (boundNames : List String) :
    KeepsForm (project tuple boundNames) where
  parenthesized _ := by rw [project]
  element _ _ := by rw [project]
  pair _ _ := by rw [project]
  step _ _ _ := by rw [project]

/-- A reference and the path to the field that stands for it end alike. -/
theorem project_reference_simulates {boundNames : List String} {outer row : Scope}
    {tuple : String} {item : Item} {world : World library} {name : String} (new : name ≠ tuple)
    (stands : StandsFor world boundNames outer row tuple item) :
    Simulates world ((Query.reference name).evaluate library (row ++ outer))
      ((project tuple boundNames (.reference name)).evaluate library ((tuple, [item]) :: outer))
      (resultLevel boundNames (.reference name)).Holds := by
  rw [project, resultLevel]
  by_cases listed : boundNames.contains name = true
  · rw [if_pos listed, if_pos listed]
    obtain ⟨node, copy, found, selected, alike⟩ :=
      stands.bound name (List.contains_iff_mem.mp listed)
    have read : (Query.step (.reference tuple) .child (fieldPath name)).evaluate library
        ((tuple, [item]) :: outer) world.right = .ok [copy] world.right := by
      rw [Query.evaluate, Query.evaluate, List.lookup_cons_self]
      exact congrArg (EStateM.Result.ok · world.right) selected
    refine .ok ?_ read (.refl world) ⟨Inside world.viewLeft world.viewRight node copy,
      Inside.matching world.viewLeft_wellFormed world.viewRight_wellFormed alike,
      .cons .top .nil⟩
    rw [Query.evaluate, found]
    rfl
  · rw [if_neg listed, if_neg listed, Query.evaluate, Query.evaluate,
      stands.unbound name (fun member => listed (List.contains_iff_mem.mpr member)),
      List.lookup_cons, beq_false_of_ne new]
    cases found : outer.lookup name with
    | none => exact .throw _
    | some items =>
        exact .pure (List.forall₂_same.mpr (stands.shared name items found))

/-- **A result and its projection end alike** over a row and a tuple that stands for it. -/
theorem project_simulates {boundNames : List String} {outer row : Scope} {tuple : String}
    {item : Item} (query : Query) (checked : checkResult query = .ok ())
    (new : tuple ∉ query.names) {world : World library}
    (stands : StandsFor world boundNames outer row tuple item) :
    Simulates world (query.evaluate library (row ++ outer))
      ((project tuple boundNames query).evaluate library ((tuple, [item]) :: outer))
      (resultLevel boundNames query).Holds := by
  refine result_simulates (keepsForm_project tuple boundNames) query checked
    fun name listed _ grows => project_reference_simulates ?_ (stands.grow grows)
  rintro rfl
  exact new listed

end TreeQuery.JoinPlan
