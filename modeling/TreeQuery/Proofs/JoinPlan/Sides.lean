import TreeQuery.Proofs.JoinPlan.Plan

/-!
# Roots and sides

Two things about an expression depend on the documents and on the scope: whether its roots
can be evaluated (`Flwr.RootsEvaluate`), and whether the sides of equalities between groups
are elements and texts (`Flwr.ComparesContent`).  The second can often be seen from the
expression alone: a side that is a variable, or a path that ends in steps to elements and
texts, reaches nothing else (`comparesContent_of_sidesReachContent`).
-/

set_option autoImplicit false

namespace TreeQuery

open Evaluation JoinPlan

variable {library : Library}

namespace JoinPlan

/-! ## Checks of an expression -/

theorem checkSources_ok {flwr : Flwr} {parents : List (Option Nat)}
    (planned : checkSources flwr = .ok parents) :
    flwr.lets = [] ∧ AreParents flwr.bindings parents := by
  rw [checkSources] at planned
  split at planned
  · rename_i none
    refine ⟨List.isEmpty_iff.mp none, ?_⟩
    have areParents := sourceParents_ok flwr.bindings
      (⟨rfl, List.nodup_nil, nofun, nofun⟩ : AreParents [] []) planned
    rwa [List.nil_append, List.nil_append] at areParents
  · exact nomatch planned

theorem planGroups_ok {parents : List (Option Nat)} {grouping : Grouping}
    (planned : planGroups parents = .ok grouping) :
    grouping = Grouping.ofParents parents ∧ 2 ≤ grouping.count ∧
      grouping.isContiguous = true := by
  rw [planGroups] at planned
  split at planned
  · exact nomatch planned
  · rename_i several
    split at planned
    · exact nomatch planned
    · rename_i contiguous
      obtain rfl := Except.ok.inj planned
      exact ⟨rfl, Nat.le_of_not_lt several, by simpa using contiguous⟩

end JoinPlan

/-! ## Conditions on the documents -/

/-- The scope of a tuple of a clause: every variable stands for one item of its source. -/
inductive Binding.IsTuple (library : Library) : List Binding → Scope → Arena → Scope → Prop where
  | nil {scope : Scope} {arena : Arena} : Binding.IsTuple library [] scope arena scope
  | cons {name : String} {source : Query} {rest : List Binding} {scope row : Scope}
      {before after : Arena} {items : List Item} {item : Item} :
      source.evaluate library scope before = .ok items after → item ∈ items →
      Binding.IsTuple library rest ((name, [item]) :: scope) after row →
      Binding.IsTuple library (⟨name, source⟩ :: rest) scope before row

/-- The rows of a clause are the tuples of the clause. -/
theorem Binding.isTuple_of_mem_rows {outer : Scope} {arena : Arena} :
    (bindings : List Binding) → ∀ {inner row : Scope},
      Binding.AreWalks library (Scope.Binds (inner ++ outer)) bindings →
        row ∈ Binding.rows (library.view arena) outer bindings inner →
          Binding.IsTuple library bindings (inner ++ outer) arena (row ++ outer)
  | [], inner, row, _, member => by
      rw [Binding.rows, List.mem_singleton] at member
      exact member ▸ .nil
  | ⟨name, source⟩ :: rest, inner, row, ⟨walks, others⟩, member => by
      rw [Binding.rows, List.mem_flatMap] at member
      obtain ⟨item, reached, member⟩ := member
      refine .cons (source.evaluate_walk walks) reached ?_
      exact Binding.isTuple_of_mem_rows rest (others.mono rest fun _ => Scope.binds_cons.mpr) member

/-- Every root of an expression can be evaluated. -/
def Flwr.RootsEvaluate (library : Library) (flwr : Flwr) (scope : Scope) (arena : Arena) : Prop :=
  ∀ source ∈ Binding.rootSources [] flwr.bindings,
    ∃ items later, source.evaluate library scope arena = .ok items later

/-- Every side of an equality between groups yields elements and texts only, in every tuple
of its group: in every combination of the group's items that satisfies the conditions of
the group. -/
def Flwr.ComparesContent (library : Library) (flwr : Flwr) (scope : Scope) (arena : Arena) :
    Prop :=
  ∀ (parents : List (Option Nat)) (equalities : List Equality) (grouping : Grouping),
    checkSources flwr = .ok parents → checkCondition flwr = .ok equalities →
      planGroups parents = .ok grouping →
    ∀ endpoint, IsSide grouping equalities endpoint →
    ∀ row, Binding.IsTuple library (grouping.bindingsOf flwr.bindings endpoint.group) scope arena
        row →
      Condition.holdsIfPresent library
        (Condition.conjunction (groupConditions grouping equalities endpoint.group)) row arena =
          .ok true arena →
    ∀ items later, endpoint.query.evaluate library row arena = .ok items later →
      ∀ item ∈ items, item.IsContent (library.view later)

namespace JoinPlan

theorem exists_of_mem_rootSources {source : Query} (bindings : List Binding)
    {bound : List String} (member : source ∈ Binding.rootSources bound bindings) :
    ∃ binding ∈ bindings, binding.source = source := by
  obtain ⟨before, name, after, rfl, _⟩ :=
    Binding.exists_split_of_mem_rootSources bindings member
  exact ⟨⟨name, source⟩, by simp, rfl⟩

/-! ## Sides that can be seen to reach content -/

/-- Whether a query that is a path off a variable ends at elements and texts, provided that
variables stand for such nodes. -/
def yieldsContent : Query → Bool
  | .reference _ => true
  | .step _ _ path => reachesContent path
  | .parenthesized inner => yieldsContent inner
  | _ => false

theorem isContent_of_yieldsContent {view : View Home} (formed : view.WellFormed) {scope : Scope}
    {name : String} {node : Item} (found : scope.lookup name = some [node])
    (content : node.IsContent view) : (query : Query) → yieldsContent query = true →
      pathOwner? query = some name → ∀ item ∈ query.walk view scope, item.IsContent view
  | .reference other, _, owned, item, member => by
      obtain rfl := Option.some.inj owned
      rw [Query.walk, found] at member
      exact List.mem_singleton.mp member ▸ content
  | .parenthesized inner, yields, owned, item, member => by
      rw [Query.walk] at member
      exact isContent_of_yieldsContent formed found content inner yields owned item member
  | .step base axis path, yields, _, item, member => by
      rw [Query.walk] at member
      exact isContent_of_mem_selectAlong formed yields item member

end JoinPlan

/-- Whether all sides of equalities between groups end at elements and texts. -/
def Flwr.sidesReachContent (flwr : Flwr) : Bool :=
  match checkSources flwr, checkCondition flwr with
  | .ok parents, .ok equalities =>
      (crossEqualities (.ofParents parents) equalities).all fun cross =>
        yieldsContent cross.left.query && yieldsContent cross.right.query
  | _, _ => false

/-- The tuples of a clause are rows. -/
theorem Binding.mem_rows_of_isTuple {outer : Scope} {arena : Arena} :
    (bindings : List Binding) → (∀ binding ∈ bindings, IsSource binding.source) →
      ∀ {inner scope : Scope}, Binding.IsTuple library bindings (inner ++ outer) arena scope →
        ∃ row ∈ Binding.rows (library.view arena) outer bindings inner, scope = row ++ outer
  | [], _, inner, scope, isTuple => by
      cases isTuple
      exact ⟨inner, List.mem_singleton.mpr rfl, rfl⟩
  | ⟨name, source⟩ :: rest, sources, inner, scope, isTuple => by
      cases isTuple with
      | cons run member others =>
          have walk : source.evaluate library (inner ++ outer) arena = .ok _ arena :=
            source.evaluate_walk ((sources _ List.mem_cons_self).isWalk run)
          obtain ⟨rfl, rfl⟩ := EStateM.Result.ok.inj (run.symm.trans walk)
          rw [← List.cons_append] at others
          obtain ⟨row, listed, rfl⟩ := Binding.mem_rows_of_isTuple rest
            (fun binding later => sources binding (List.mem_cons_of_mem _ later)) others
          exact ⟨row, by rw [Binding.rows]; exact List.mem_flatMap.mpr ⟨_, member, listed⟩, rfl⟩

namespace JoinPlan

variable {plan : Plan} {group : Nat} (areParents : AreParents plan.bindings plan.parents)
include areParents

theorem Plan.isSource_of_mem_bindingsOf {binding : Binding}
    (listed : binding ∈ plan.bindingsOf group) : IsSource binding.source := by
  obtain ⟨i, found, _⟩ := (Grouping.mem_bindingsOf areParents).mp listed
  exact areParents.source found

/-- In a tuple of a group, every variable of the group stands for an element or a text. -/
theorem Plan.lookup_of_isTuple {outer scope : Scope} {arena : Arena}
    (documents : library.WellFormed) (formed : arena.WellFormed)
    (isTuple : Binding.IsTuple library (plan.bindingsOf group) outer arena scope) {name : String}
    (bound : name ∈ (plan.bindingsOf group).map (·.name)) :
    ∃ node, scope.lookup name = some [node] ∧ node.IsContent (library.view arena) := by
  have sources : ∀ binding ∈ plan.bindingsOf group, IsSource binding.source :=
    fun _ listed => Plan.isSource_of_mem_bindingsOf areParents listed
  obtain ⟨row, listed, rfl⟩ := Binding.mem_rows_of_isTuple _ sources
    (show Binding.IsTuple library _ ([] ++ outer) arena _ from isTuple)
  obtain ⟨node, found, content⟩ :=
    Binding.lookup_row (documents.view formed) sources listed bound
  exact ⟨node, by rw [List.lookup_append, found, Option.some_or], content⟩

end JoinPlan

/-- **Sides that end at elements and texts yield such nodes only.** -/
theorem Flwr.comparesContent_of_sidesReachContent {flwr : Flwr} {scope : Scope} {arena : Arena}
    (documents : library.WellFormed) (formed : arena.WellFormed)
    (reach : flwr.sidesReachContent = true) : flwr.ComparesContent library scope arena := by
  intro parents equalities grouping sources condition groups endpoint isSide inner isTuple _ items
    later run item member
  obtain ⟨_, areParents⟩ := checkSources_ok sources
  obtain ⟨rfl, _, _⟩ := planGroups_ok groups
  let plan : Plan := ⟨flwr.bindings, parents, equalities, ⟨[], []⟩⟩
  have describes := describes_of_checkCondition condition
  have ends : yieldsContent endpoint.query = true := by
    rw [Flwr.sidesReachContent, sources, condition] at reach
    obtain ⟨cross, listed, side⟩ := isSide
    have both := List.all_eq_true.mp reach cross listed
    rw [Bool.and_eq_true] at both
    rcases side with rfl | rfl
    · exact both.1
    · exact both.2
  obtain ⟨name, bound, owned⟩ := plan.owned_of_isSide areParents describes isSide
  obtain ⟨node, found, content⟩ := plan.lookup_of_isTuple areParents documents formed isTuple bound
  have walk : endpoint.query.evaluate library inner arena = .ok _ arena :=
    endpoint.query.evaluate_walk (isWalk_of_pathOwner? ⟨_, found⟩ endpoint.query owned)
  obtain ⟨rfl, rfl⟩ := EStateM.Result.ok.inj (run.symm.trans walk)
  exact isContent_of_yieldsContent (documents.view formed) found content _ ends owned item member

end TreeQuery
