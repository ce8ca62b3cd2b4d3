import TreeQuery.Proofs.JoinPlan.Levels
import TreeQuery.Proofs.JoinPlan.Stability
import TreeQuery.Proofs.Query.TitledForms

/-!
# Titles and joins

Join planning looks at no name of a document.  The only documents of an eligible expression are
those that its sources are paths off; conditions and results have none, and neither have the keys
of joins.  So an expression with titles for names becomes the same joins with titles for names,
or is refused for the same reason (`Flwr.toJoins_titled`), and optimizing a query gives titles to
the optimized query (`Query.optimize_titled`).  Whether a query tolerates joins does not depend on
the names of its documents either (`Query.toleratesJoins_titled`).
-/

set_option autoImplicit false

namespace TreeQuery

open JoinPlan

variable (title : String → String)

/-- A `for` expression in which every document has its title for a name. -/
def Flwr.titled (flwr : Flwr) : Flwr :=
  ⟨Binding.titledAll title flwr.bindings, Binding.titledAll title flwr.lets,
    Condition.titledIfPresent title flwr.condition, flwr.result.titled title⟩

/-! ## Names -/

theorem Binding.map_name_titledAll (bindings : List Binding) :
    (Binding.titledAll title bindings).map (·.name) = bindings.map (·.name) := by
  rw [titledAll_eq_map, List.map_map]
  rfl

theorem Binding.any_name_titledAll (bindings : List Binding) (name : String) :
    (Binding.titledAll title bindings).any (·.name == name) =
      bindings.any (·.name == name) := by
  rw [titledAll_eq_map, List.any_map]
  rfl

theorem Binding.findIdx?_name_titledAll (bindings : List Binding) (name : String) :
    (Binding.titledAll title bindings).findIdx? (·.name == name) =
      bindings.findIdx? (·.name == name) := by
  rw [titledAll_eq_map, List.findIdx?_map]
  rfl

mutual
/-- The titles of documents do not change which variable names occur. -/
theorem Query.names_titled : (query : Query) → (query.titled title).names = query.names
  | .reference _ | .constant _ | .document _ => by simp only [Query.titled, Query.names]
  | .parenthesized inner => by rw [Query.titled, Query.names, Query.names, inner.names_titled]
  | .pair left right | .join left right _ _ => by
      rw [Query.titled, Query.names, Query.names, left.names_titled, right.names_titled]
  | .step base _ _ => by rw [Query.titled, Query.names, Query.names, base.names_titled]
  | .element _ body => by rw [Query.titled, Query.names, Query.names, body.names_titled]
  | .letIn bindings body => by
      rw [Query.titled, Query.names, Query.names, Binding.namesOf_titledAll bindings,
        body.names_titled]
  | .flwr bindings lets condition result => by
      rw [Query.titled, Query.names, Query.names, Binding.namesOf_titledAll bindings,
        Binding.namesOf_titledAll lets, Condition.names_titledIfPresent condition,
        result.names_titled]

theorem Condition.names_titled : (condition : Condition) →
    (condition.titled title).names = condition.names
  | .valueEq left right | .identityEq left right | .and left right | .or left right => by
      rw [Condition.titled, Condition.names, Condition.names, left.names_titled,
        right.names_titled]
  | .empty query => by rw [Condition.titled, Condition.names, Condition.names, query.names_titled]
  | .someSatisfies bindings body => by
      rw [Condition.titled, Condition.names, Condition.names, Binding.namesOf_titledAll bindings,
        body.names_titled]
  | .parenthesized inner | .not inner => by
      rw [Condition.titled, Condition.names, Condition.names, inner.names_titled]

theorem Condition.names_titledIfPresent : (condition : Option Condition) →
    Condition.namesIfPresent (Condition.titledIfPresent title condition) =
      Condition.namesIfPresent condition
  | none => rfl
  | some condition => by
      rw [Condition.titledIfPresent, Condition.namesIfPresent, Condition.namesIfPresent,
        condition.names_titled]

theorem Binding.namesOf_titledAll : (bindings : List Binding) →
    Binding.namesOf (Binding.titledAll title bindings) = Binding.namesOf bindings
  | [] => rfl
  | ⟨_, source⟩ :: rest => by
      rw [Binding.titledAll, Binding.namesOf, Binding.namesOf, source.names_titled,
        Binding.namesOf_titledAll rest]
end

theorem Flwr.names_titled (flwr : Flwr) : (flwr.titled title).names = flwr.names := by
  rw [names, names, titled, Binding.namesOf_titledAll, Condition.names_titledIfPresent,
    Query.names_titled]

namespace JoinPlan

/-! ## Sources -/

theorem sourceParent_titled (earlier : List Binding) (source : Query) :
    sourceParent (Binding.titledAll title earlier) (source.titled title) =
      sourceParent earlier source := by
  cases source with
  | step base axis path =>
      cases base with
      | reference name =>
          rw [Query.titled, Query.titled, sourceParent, sourceParent,
            Binding.findIdx?_name_titledAll]
      | _ => simp only [Query.titled, sourceParent]
  | _ => simp only [Query.titled, sourceParent, DocumentPath.titled]

theorem sourceParents_titledAll (bindings : List Binding) : ∀ {earlier : List Binding},
    sourceParents (Binding.titledAll title earlier) (Binding.titledAll title bindings) =
      sourceParents earlier bindings := by
  induction bindings with
  | nil =>
      intro earlier
      rw [Binding.titledAll]
      rfl
  | cons binding rest ih =>
      intro earlier
      obtain ⟨name, source⟩ := binding
      have further : Binding.titledAll title earlier ++ [⟨name, source.titled title⟩] =
          Binding.titledAll title (earlier ++ [⟨name, source⟩]) := by
        simp only [Binding.titledAll_eq_map, List.map_append, List.map_singleton, Binding.titled]
      rw [Binding.titledAll, sourceParents, sourceParents, sourceParent_titled,
        Binding.any_name_titledAll, further, ih]

theorem checkSources_titled (flwr : Flwr) :
    checkSources (flwr.titled title) = checkSources flwr := by
  have lets : (Binding.titledAll title flwr.lets).isEmpty = flwr.lets.isEmpty := by
    rw [Binding.titledAll_eq_map, List.isEmpty_map]
  have parents := @sourceParents_titledAll title flwr.bindings []
  rw [Binding.titledAll_nil] at parents
  rw [checkSources, checkSources, Flwr.titled, lets]
  exact if_congr Iff.rfl parents rfl

/-! ## Sides of equalities -/

theorem pathOwner?_titled : (query : Query) → pathOwner? (query.titled title) = pathOwner? query
  | .reference _ | .constant _ | .document _ | .pair _ _ | .element _ _ | .join _ _ _ _
  | .letIn _ _ | .flwr _ _ _ _ => by simp only [Query.titled, pathOwner?]
  | .parenthesized inner => by
      rw [Query.titled, pathOwner?, pathOwner?, pathOwner?_titled inner]
  | .step base _ _ => by rw [Query.titled, pathOwner?, pathOwner?, pathOwner?_titled base]

/-- A path off a variable has no documents. -/
theorem titled_of_pathOwner? {name : String} : (query : Query) → pathOwner? query = some name →
    query.titled title = query
  | .reference _, _ => by rw [Query.titled]
  | .step base _ _, owned => by rw [Query.titled, titled_of_pathOwner? base owned]
  | .parenthesized inner, owned => by rw [Query.titled, titled_of_pathOwner? inner owned]

theorem titled_of_constant? {value : String} : (query : Query) → query.constant? = some value →
    query.titled title = query
  | .constant _, _ => by rw [Query.titled]
  | .parenthesized inner, constant => by rw [Query.titled, titled_of_constant? inner constant]

/-- A side of an equality has no documents. -/
theorem Operand.Describes.titled_eq {bindings : List Binding} {operand : Operand} {query : Query}
    (describes : operand.Describes bindings query) : query.titled title = query := by
  cases operand with
  | constant value => exact titled_of_constant? title query describes
  | path owner inner =>
      obtain ⟨_, _, binding, _, owned⟩ := describes
      exact titled_of_pathOwner? title query owned

theorem Equality.Describes.titled_eq {bindings : List Binding} {equality : Equality}
    (describes : equality.Describes bindings) :
    equality.source.titled title = equality.source := by
  cases describes with
  | intro left right => rw [Condition.titled, left.titled_eq, right.titled_eq]

theorem operand?_titled (bindings : List Binding) (query : Query) :
    operand? (Binding.titledAll title bindings) (query.titled title) = operand? bindings query := by
  by_cases constant : ∃ value, query.unparenthesized = .constant value
  · obtain ⟨value, constant⟩ := constant
    rw [operand?, operand?, Query.unparenthesized_titled, constant, Query.titled]
  · have path := not_exists.mp constant
    have stillPath : ∀ value, (query.titled title).unparenthesized ≠ .constant value := by
      intro value same
      rw [Query.unparenthesized_titled] at same
      cases form : query.unparenthesized with
      | constant value => exact path value form
      | _ =>
          rw [form, Query.titled] at same
          cases same
    rw [operand?_eq_of_path bindings path, operand?_eq_of_path _ stillPath, pathOwner?_titled]
    cases owned : pathOwner? query with
    | none => rfl
    | some name =>
        have inner := titled_of_pathOwner? title query.unparenthesized
          ((pathOwner?_unparenthesized query).trans owned)
        rw [Option.bind_some, Option.bind_some, Binding.findIdx?_name_titledAll,
          Query.unparenthesized_titled, inner]

/-! ## Conditions -/

theorem equalitiesOf_titled (bindings : List Binding) : (condition : Condition) →
    equalitiesOf (Binding.titledAll title bindings) (condition.titled title) =
      equalitiesOf bindings condition
  | .and left right => by
      rw [Condition.titled, equalitiesOf, equalitiesOf, equalitiesOf_titled bindings left,
        equalitiesOf_titled bindings right]
  | .parenthesized inner => by
      rw [Condition.titled, equalitiesOf, equalitiesOf, equalitiesOf_titled bindings inner]
  | .valueEq left right => by
      rw [Condition.titled, equalitiesOf, equalitiesOf, operand?_titled, operand?_titled]
      cases foundLeft : operand? bindings left with
      | none => rfl
      | some leftOperand =>
          cases foundRight : operand? bindings right with
          | none => rfl
          | some rightOperand =>
              rw [(operand?_ok foundLeft).titled_eq, (operand?_ok foundRight).titled_eq]
  | .identityEq _ _ | .empty _ | .someSatisfies _ _ | .or _ _ | .not _ => by
      rw [Condition.titled]
      rfl

theorem checkCondition_titled (flwr : Flwr) :
    checkCondition (flwr.titled title) = checkCondition flwr := by
  rw [checkCondition, checkCondition, Flwr.titled]
  cases flwr.condition with
  | none => rw [Condition.titledIfPresent]
  | some condition =>
      rw [Condition.titledIfPresent]
      exact equalitiesOf_titled title flwr.bindings condition

/-! ## Results -/

theorem allowsStep_titled : (query : Query) → allowsStep (query.titled title) = allowsStep query
  | .reference _ | .constant _ | .document _ | .pair _ _ | .step _ _ _ | .element _ _
  | .join _ _ _ _ | .letIn _ _ | .flwr _ _ _ _ => by simp only [Query.titled, allowsStep]
  | .parenthesized inner => by
      rw [Query.titled, allowsStep, allowsStep, allowsStep_titled inner]

theorem checkResult_titled : (result : Query) →
    checkResult (result.titled title) = checkResult result
  | .reference _ | .constant _ | .document _ | .join _ _ _ _ | .letIn _ _ | .flwr _ _ _ _ => by
      simp only [Query.titled, checkResult]
  | .parenthesized inner => by
      rw [Query.titled, checkResult, checkResult, checkResult_titled inner]
  | .element _ body => by
      rw [Query.titled, checkResult, checkResult, checkResult_titled body]
  | .pair left right => by
      rw [Query.titled, checkResult, checkResult, checkResult_titled left,
        checkResult_titled right]
  | .step base _ _ => by
      rw [Query.titled, checkResult, checkResult, allowsStep_titled, checkResult_titled base]

/-- Reading variables from fields leaves documents as they are. -/
theorem project_titled (tuple : String) (boundNames : List String) : (query : Query) →
    project tuple boundNames (query.titled title) = (project tuple boundNames query).titled title
  | .reference name => by
      rw [Query.titled, project]
      split <;> simp only [Query.titled]
  | .constant _ | .document _ | .join _ _ _ _ | .letIn _ _ | .flwr _ _ _ _ => by
      simp only [Query.titled, project]
  | .parenthesized inner => by
      rw [Query.titled, project, project, project_titled tuple boundNames inner, Query.titled]
  | .pair left right => by
      rw [Query.titled, project, project, project_titled tuple boundNames left,
        project_titled tuple boundNames right, Query.titled]
  | .step base _ _ => by
      rw [Query.titled, project, project, project_titled tuple boundNames base, Query.titled]
  | .element _ body => by
      rw [Query.titled, project, project, project_titled tuple boundNames body, Query.titled]

/-! ## Joins -/

theorem titled_sequence {queries : List Query} {query : Query}
    (stay : ∀ query ∈ queries, query.titled title = query)
    (made : Query.sequence queries = some query) : query.titled title = query := by
  refine leftNested_induction (fun left right => ?_) stay made
  rw [Query.titled, left, right]

theorem titled_conjunction {conditions : List Condition}
    (stay : ∀ condition ∈ conditions, condition.titled title = condition) :
    Condition.titledIfPresent title (Condition.conjunction conditions) =
      Condition.conjunction conditions := by
  cases made : Condition.conjunction conditions with
  | none => rw [Condition.titledIfPresent]
  | some condition =>
      have stays : condition.titled title = condition := by
        refine leftNested_induction (fun left right => ?_) stay made
        rw [Condition.titled, left, right]
      rw [Condition.titledIfPresent, stays]

/-- Where conditions and keys have no documents, only the sources of a group have any. -/
theorem groupQuery_titled (bindings : List Binding) {conditions : List Condition}
    {keys : List KeyField}
    (conditionsStay : ∀ condition ∈ conditions, condition.titled title = condition)
    (keysStay : ∀ key ∈ keys, key.query.titled title = key.query) :
    groupQuery (Binding.titledAll title bindings) conditions keys =
      (groupQuery bindings conditions keys).map (Query.titled title) := by
  have fields : (Binding.titledAll title bindings).map variableField =
      bindings.map variableField := by
    rw [Binding.titledAll_eq_map, List.map_map]
    rfl
  rw [groupQuery, groupQuery, fields]
  cases made : Query.sequence
      (bindings.map variableField ++ keys.map fun key => .element key.tag key.query) with
  | none => rfl
  | some body =>
      have stays : body.titled title = body := by
        refine titled_sequence title (List.forall_mem_append.mpr ⟨?_, ?_⟩) made
        · refine List.forall_mem_map.mpr fun binding _ => ?_
          rw [variableField, Query.titled, Query.titled]
        · refine List.forall_mem_map.mpr fun key listed => ?_
          rw [Query.titled, keysStay key listed]
      simp only [Except.map, Query.titled, stays, Binding.titledAll_nil,
        titled_conjunction title conditionsStay]

/-- What is changed in each result is changed in all of them. -/
theorem mapM_map_result {ε α β γ : Type} (check : α → Except ε β) (change : β → γ)
    (members : List α) : (members.mapM fun member => (check member).map change) =
      (members.mapM check).map (List.map change) := by
  induction members with
  | nil => rfl
  | cons member rest ih =>
      rw [List.mapM_cons, List.mapM_cons, ih]
      cases check member with
      | error failure => rfl
      | ok result => cases rest.mapM check <;> rfl

theorem groupQueries_titled (flwr : Flwr) (grouping : Grouping) {equalities : List Equality}
    {keys : List KeyField}
    (conditionsStay : ∀ equality ∈ equalities, equality.source.titled title = equality.source)
    (keysStay : ∀ key ∈ keys, key.query.titled title = key.query) :
    groupQueries (flwr.titled title) grouping equalities keys =
      (groupQueries flwr grouping equalities keys).map (List.map (Query.titled title)) := by
  rw [groupQueries, groupQueries, ← mapM_map_result]
  refine congrArg (List.mapM · _) (funext fun group => ?_)
  have members : (grouping.members group).filterMap ((flwr.titled title).bindings[·]?) =
      Binding.titledAll title ((grouping.members group).filterMap (flwr.bindings[·]?)) := by
    simp only [Flwr.titled, Binding.titledAll_eq_map, List.map_filterMap, List.getElem?_map]
  rw [members]
  refine groupQuery_titled title _ (fun condition listed => ?_) fun key listed =>
    keysStay key (List.mem_of_mem_filter listed)
  obtain ⟨equality, among, _, rfl⟩ := mem_groupConditions.mp listed
  exact conditionsStay equality among

theorem joinChain_titled (stages : List (Query × List (String × String))) : ∀ first : Query,
    (joinChain first stages).titled title =
      joinChain (first.titled title) (stages.map (Prod.map (Query.titled title) id)) := by
  induction stages with
  | nil => exact fun _ => rfl
  | cons stage rest ih =>
      intro first
      rw [joinChain, List.foldl_cons]
      refine (ih _).trans ?_
      rw [Query.titled, List.map_cons, joinChain, joinChain, List.foldl_cons]
      rfl

/-- An eligible expression with titles for names is assembled from the same groups, with titles for
names in their sources. -/
theorem assemble_titled {flwr : Flwr} {parents : List (Option Nat)} {equalities : List Equality}
    (areParents : AreParents flwr.bindings parents)
    (describes : ∀ equality ∈ equalities, equality.Describes flwr.bindings) :
    assemble (flwr.titled title) (.ofParents parents) equalities =
      (assemble flwr (.ofParents parents) equalities).map (Query.titled title) := by
  rw [assemble, assemble, Flwr.names_titled]
  cases planned : (planJoins 1 ((Grouping.ofParents parents).count - 1)
      (crossEqualities (.ofParents parents) equalities)).run ⟨flwr.names, []⟩ with
  | error rejection => rfl
  | ok result =>
      obtain ⟨⟨joins, leftovers⟩, keys⟩ := result
      obtain ⟨sound, _, left, _⟩ :=
        planJoins_ok (sound_empty _ _) (areSides_crossEqualities _ _) planned
      let plan : Plan := ⟨flwr.bindings, parents, equalities, keys⟩
      obtain rfl : leftovers = [] := plan.leftovers_eq_nil areParents describes left
      have keysStay : ∀ key ∈ keys.fields, key.query.titled title = key.query := by
        intro key listed
        obtain ⟨_, _, owned⟩ := plan.owned_of_isSide areParents describes (sound.sides key listed)
        exact titled_of_pathOwner? title key.query owned
      have queries := groupQueries_titled title flwr (.ofParents parents)
        (fun equality listed => (describes equality listed).titled_eq title) keysStay
      show (groupQueries (flwr.titled title) (.ofParents parents) equalities keys.fields >>= _) =
        Except.map _ (groupQueries flwr (.ofParents parents) equalities keys.fields >>= _)
      rw [queries]
      cases groupQueries flwr (.ofParents parents) equalities keys.fields with
      | error rejection => rfl
      | ok queries =>
          cases queries with
          | nil => rfl
          | cons first others =>
              have names : (flwr.titled title).bindings.map (·.name) =
                  flwr.bindings.map (·.name) := Binding.map_name_titledAll title flwr.bindings
              have stages : (others.map (Query.titled title)).zip joins =
                  (others.zip joins).map (Prod.map (Query.titled title) id) := by
                rw [List.zip_map_left]
              show Except.ok (Query.flwr [⟨_, joinChain (first.titled title)
                ((others.map (Query.titled title)).zip joins)⟩] [] none
                  (project _ ((flwr.titled title).bindings.map (·.name))
                    (flwr.result.titled title))) = _
              rw [names, stages, ← joinChain_titled, project_titled]
              rfl

end JoinPlan

/-- **Join planning does not depend on the names of documents.** -/
theorem Flwr.toJoins_titled (flwr : Flwr) :
    (flwr.titled title).toJoins = flwr.toJoins.map (Query.titled title) := by
  have sameResult : checkResult (flwr.titled title).result = checkResult flwr.result :=
    checkResult_titled title flwr.result
  rw [toJoins, toJoins, checkSources_titled, checkCondition_titled, sameResult]
  cases sources : checkSources flwr with
  | error rejection => rfl
  | ok parents =>
      cases condition : checkCondition flwr with
      | error rejection => rfl
      | ok equalities =>
          cases checkResult flwr.result with
          | error rejection => rfl
          | ok _ =>
              show (planGroups parents >>= _) = Except.map _ (planGroups parents >>= _)
              cases groups : planGroups parents with
              | error rejection => rfl
              | ok grouping =>
                  obtain ⟨rfl, _, _⟩ := planGroups_ok groups
                  exact assemble_titled title (checkSources_ok sources).2
                    (describes_of_checkCondition condition)

/-! ## Optimizing -/

mutual
theorem Query.replace_titled : (query : Query) →
    (query.titled title).replace .joins = (query.replace .joins).titled title
  | .reference _ | .constant _ | .document _ => by simp only [Query.titled, Query.replace]
  | .parenthesized inner => by simp only [Query.titled, Query.replace, inner.replace_titled]
  | .pair left right | .join left right _ _ => by
      simp only [Query.titled, Query.replace, left.replace_titled, right.replace_titled]
  | .step base _ _ => by simp only [Query.titled, Query.replace, base.replace_titled]
  | .element _ body => by simp only [Query.titled, Query.replace, body.replace_titled]
  | .letIn bindings body => by
      simp only [Query.titled, Query.replace, Binding.replaceAll_titledAll bindings,
        body.replace_titled]
  | .flwr bindings lets condition result => by
      have joins : Replacements.joins (Flwr.titled title ⟨bindings, lets, condition, result⟩) =
          (Replacements.joins ⟨bindings, lets, condition, result⟩).map (Query.titled title) := by
        rw [Replacements.joins, Replacements.joins, Flwr.toJoins_titled]
        cases Flwr.toJoins ⟨bindings, lets, condition, result⟩ <;> rfl
      rw [Flwr.titled] at joins
      rw [Query.titled, Query.replace, Query.replace, joins]
      cases Replacements.joins ⟨bindings, lets, condition, result⟩ with
      | some query => rfl
      | none =>
          simp only [Option.map_none, Option.getD_none, Query.titled,
            Binding.replaceAll_titledAll bindings, Binding.replaceAll_titledAll lets,
            Condition.replaceIfPresent_titled condition, result.replace_titled]

theorem Condition.replace_titled : (condition : Condition) →
    (condition.titled title).replace .joins = (condition.replace .joins).titled title
  | .valueEq left right | .identityEq left right | .and left right | .or left right => by
      simp only [Condition.titled, Condition.replace, left.replace_titled, right.replace_titled]
  | .empty query => by simp only [Condition.titled, Condition.replace, query.replace_titled]
  | .someSatisfies bindings body => by
      simp only [Condition.titled, Condition.replace, Binding.replaceAll_titledAll bindings,
        body.replace_titled]
  | .parenthesized inner | .not inner => by
      simp only [Condition.titled, Condition.replace, inner.replace_titled]

theorem Condition.replaceIfPresent_titled : (condition : Option Condition) →
    Condition.replaceIfPresent .joins (Condition.titledIfPresent title condition) =
      Condition.titledIfPresent title (Condition.replaceIfPresent .joins condition)
  | none => by simp only [Condition.titledIfPresent, Condition.replaceIfPresent]
  | some condition => by
      simp only [Condition.titledIfPresent, Condition.replaceIfPresent, condition.replace_titled]

theorem Binding.replaceAll_titledAll : (bindings : List Binding) →
    Binding.replaceAll .joins (Binding.titledAll title bindings) =
      Binding.titledAll title (Binding.replaceAll .joins bindings)
  | [] => by simp only [Binding.titledAll, Binding.replaceAll]
  | ⟨_, source⟩ :: rest => by
      simp only [Binding.titledAll, Binding.replaceAll, source.replace_titled,
        Binding.replaceAll_titledAll rest]
end

/-- **Optimizing does not depend on the names of documents.** -/
theorem Query.optimize_titled (query : Query) :
    (query.titled title).optimize.query = query.optimize.query.titled title := by
  rw [optimize_query, optimize_query, query.replace_titled]

/-! ## Levels -/

theorem Binding.all_rootSources_titledAll (levels : Levels) (bindings : List Binding) :
    ∀ {bound : List String},
      (Binding.rootSources bound (Binding.titledAll title bindings)).all levels.bindRoot =
        (Binding.rootSources bound bindings).all levels.bindRoot := by
  induction bindings with
  | nil =>
      intro bound
      rw [titledAll]
  | cons binding rest ih =>
      intro bound
      obtain ⟨name, source⟩ := binding
      have root : levels.bindRoot (source.titled title) = levels.bindRoot source := by
        rw [Levels.bindRoot, Levels.bindRoot, pathOwner?_titled]
      rw [titledAll, rootSources, rootSources, pathOwner?_titled]
      split
      · rw [List.all_cons, List.all_cons, root, ih]
      · exact ih

theorem Flwr.sidesReachContent_titled (flwr : Flwr) :
    (flwr.titled title).sidesReachContent = flwr.sidesReachContent := by
  rw [sidesReachContent, sidesReachContent, checkSources_titled, checkCondition_titled]

theorem resultLevel_titled (boundNames : List String) : (result : Query) →
    resultLevel boundNames (result.titled title) = resultLevel boundNames result
  | .reference _ | .constant _ | .document _ | .element _ _ | .join _ _ _ _ | .letIn _ _
  | .flwr _ _ _ _ => by simp only [Query.titled, resultLevel]
  | .parenthesized inner => by
      rw [Query.titled, resultLevel, resultLevel, resultLevel_titled boundNames inner]
  | .pair left right => by
      rw [Query.titled, resultLevel, resultLevel, resultLevel_titled boundNames left,
        resultLevel_titled boundNames right]
  | .step base _ _ => by
      rw [Query.titled, resultLevel, resultLevel, resultLevel_titled boundNames base]

theorem Flwr.level?_titled (levels : Levels) (flwr : Flwr) (kept : Level) :
    (flwr.titled title).level? levels kept = flwr.level? levels kept := by
  have roots : (Binding.rootSources [] (flwr.titled title).bindings).all levels.bindRoot =
      (Binding.rootSources [] flwr.bindings).all levels.bindRoot :=
    Binding.all_rootSources_titledAll title levels flwr.bindings
  have names : (flwr.titled title).bindings.map (·.name) = flwr.bindings.map (·.name) :=
    Binding.map_name_titledAll title flwr.bindings
  have result : ∀ boundNames, resultLevel boundNames (flwr.titled title).result =
      resultLevel boundNames flwr.result := fun _ => resultLevel_titled title _ flwr.result
  rw [level?, level?, toJoins_titled, roots, names, result, sidesReachContent_titled]
  cases flwr.toJoins <;> rfl

mutual
theorem Query.level?_titled : (query : Query) → ∀ {levels : Levels},
    (query.titled title).level? levels = query.level? levels
  | .reference _, _ | .constant _, _ | .document _, _ => by
      simp only [Query.titled, Query.level?]
  | .parenthesized inner, _ => by
      rw [Query.titled, Query.level?, Query.level?, inner.level?_titled]
  | .pair left right, _ | .join left right _ _, _ => by
      rw [Query.titled, Query.level?, Query.level?, left.level?_titled, right.level?_titled]
  | .step base _ _, _ => by rw [Query.titled, Query.level?, Query.level?, base.level?_titled]
  | .element _ body, _ => by rw [Query.titled, Query.level?, Query.level?, body.level?_titled]
  | .letIn bindings body, _ => by
      rw [Query.titled, Query.level?, Query.level?, Binding.levelsApart?_titledAll bindings]
      simp only [body.level?_titled]
  | .flwr bindings lets condition result, _ => by
      have whole := Flwr.level?_titled title
      rw [Query.titled, Query.level?, Query.level?, Binding.levelsOfItems?_titledAll bindings]
      simp only [Binding.levelsInOrder?_titledAll lets,
        Condition.tolerates_titledIfPresent condition, result.level?_titled,
        ← whole _ ⟨bindings, lets, condition, result⟩, Flwr.titled]

theorem Condition.tolerates_titled : (condition : Condition) → ∀ {levels : Levels},
    (condition.titled title).tolerates levels = condition.tolerates levels
  | .valueEq left right, _ | .identityEq left right, _ => by
      rw [Condition.titled, Condition.tolerates, Condition.tolerates, left.level?_titled,
        right.level?_titled]
  | .empty query, _ => by
      rw [Condition.titled, Condition.tolerates, Condition.tolerates, query.level?_titled]
  | .someSatisfies bindings body, _ => by
      rw [Condition.titled, Condition.tolerates, Condition.tolerates,
        Binding.levelsOfItems?_titledAll bindings]
      simp only [body.tolerates_titled]
  | .parenthesized inner, _ | .not inner, _ => by
      rw [Condition.titled, Condition.tolerates, Condition.tolerates, inner.tolerates_titled]
  | .and left right, _ | .or left right, _ => by
      rw [Condition.titled, Condition.tolerates, Condition.tolerates, left.tolerates_titled,
        right.tolerates_titled]

theorem Condition.tolerates_titledIfPresent : (condition : Option Condition) →
    ∀ {levels : Levels}, Condition.toleratesIfPresent levels
      (Condition.titledIfPresent title condition) = Condition.toleratesIfPresent levels condition
  | none, _ => by rw [Condition.titledIfPresent]
  | some condition, _ => by
      rw [Condition.titledIfPresent, Condition.toleratesIfPresent, Condition.toleratesIfPresent,
        condition.tolerates_titled]

theorem Binding.levelsOfItems?_titledAll : (bindings : List Binding) → ∀ {levels : Levels},
    Binding.levelsOfItems? levels (Binding.titledAll title bindings) =
      Binding.levelsOfItems? levels bindings
  | [], _ => by rw [Binding.titledAll_nil]
  | ⟨_, source⟩ :: rest, _ => by
      rw [Binding.titledAll, Binding.levelsOfItems?, Binding.levelsOfItems?, source.level?_titled]
      simp only [Binding.levelsOfItems?_titledAll rest]

theorem Binding.levelsInOrder?_titledAll : (bindings : List Binding) → ∀ {levels : Levels},
    Binding.levelsInOrder? levels (Binding.titledAll title bindings) =
      Binding.levelsInOrder? levels bindings
  | [], _ => by rw [Binding.titledAll_nil]
  | ⟨_, source⟩ :: rest, _ => by
      rw [Binding.titledAll, Binding.levelsInOrder?, Binding.levelsInOrder?, source.level?_titled]
      simp only [Binding.levelsInOrder?_titledAll rest]

theorem Binding.levelsApart?_titledAll : (bindings : List Binding) →
    ∀ {outer inner : Levels}, Binding.levelsApart? outer inner (Binding.titledAll title bindings) =
      Binding.levelsApart? outer inner bindings
  | [], _, _ => by rw [Binding.titledAll_nil]
  | ⟨_, source⟩ :: rest, _, _ => by
      rw [Binding.titledAll, Binding.levelsApart?, Binding.levelsApart?, source.level?_titled]
      simp only [Binding.levelsApart?_titledAll rest]
end

/-- **Whether a query tolerates joins does not depend on the names of documents.** -/
theorem Query.toleratesJoins_titled (query : Query) :
    (query.titled title).toleratesJoins = query.toleratesJoins := by
  rw [toleratesJoins, toleratesJoins, query.rename_titled, Query.level?_titled]

end TreeQuery
