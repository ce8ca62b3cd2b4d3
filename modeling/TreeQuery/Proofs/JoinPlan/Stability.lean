import TreeQuery.Proofs.JoinPlan.Replacement

/-!
# Eligibility looks at forms

Whatever the checks of join planning accept has no `for` expression in it: sources are paths
off documents and variables, sides of equalities are constants and paths off variables, and
results are built from variables.  So nothing is replaced in the parts of an eligible
expression (`replaceInside_of_checks`).

What the checks refuse they refuse because of its form, and a `for` expression that is replaced
by another one keeps the form of everything around it.  So replacing inside of an expression
changes neither whether the expression becomes joins nor what is said against it
(`Flwr.toJoins_replaceInside`).
-/

set_option autoImplicit false

namespace TreeQuery

open JoinPlan

/-- `for` expressions are replaced by `for` expressions. -/
def Replacements.KeepForm (replacements : Replacements) : Prop :=
  ∀ flwr query, replacements flwr = some query → ∃ other : Flwr, query = other.toQuery

/-- Joins are computed by a `for` expression over their tuples. -/
theorem Replacements.keepForm_joins : Replacements.joins.KeepForm := by
  intro flwr query found
  obtain ⟨plan, rewrites⟩ := toJoins_ok (Replacements.joins_eq_some.mp found)
  obtain ⟨_, _, _, _, _, _, _, rfl⟩ := rewrites.chain
  exact ⟨⟨_, _, _, _⟩, rfl⟩

/-- A `for` expression with its parts replaced, but not itself. -/
def Flwr.replaceInside (replacements : Replacements) (flwr : Flwr) : Flwr :=
  ⟨Binding.replaceAll replacements flwr.bindings, Binding.replaceAll replacements flwr.lets,
    Condition.replaceIfPresent replacements flwr.condition, flwr.result.replace replacements⟩

variable {replacements : Replacements}

theorem Query.exists_replace_flwr (keeps : replacements.KeepForm) (bindings lets : List Binding)
    (condition : Option Condition) (result : Query) :
    ∃ other : Flwr,
      (Query.flwr bindings lets condition result).replace replacements = other.toQuery := by
  rw [Query.replace]
  cases found : replacements ⟨bindings, lets, condition, result⟩ with
  | none => exact ⟨⟨_, _, _, _⟩, rfl⟩
  | some query => exact keeps _ _ found

namespace JoinPlan

/-! ## Sources -/

theorem IsSource.replace_eq {source : Query} (isSource : IsSource source) :
    source.replace replacements = source := by
  cases isSource with
  | document _ => rw [Query.replace]
  | reference _ => rw [Query.replace, Query.replace]

theorem sourceParent_replace (keeps : replacements.KeepForm) (earlier : List Binding)
    (source : Query) :
    sourceParent earlier (source.replace replacements) = sourceParent earlier source := by
  cases source with
  | step base axis path =>
      cases base with
      | flwr bindings lets condition result =>
          obtain ⟨other, form⟩ := Query.exists_replace_flwr keeps bindings lets condition result
          rw [Query.replace, form]
          rfl
      | _ => rw [Query.replace, Query.replace] <;> rfl
  | flwr bindings lets condition result =>
      obtain ⟨other, form⟩ := Query.exists_replace_flwr keeps bindings lets condition result
      rw [form]
      rfl
  | _ => rw [Query.replace] <;> rfl

/-- Nothing is replaced in the sources of an eligible expression. -/
theorem replaceAll_of_sourceParents : (bindings : List Binding) → ∀ {earlier : List Binding}
    {parents : List (Option Nat)}, sourceParents earlier bindings = .ok parents →
      Binding.replaceAll replacements bindings = bindings
  | [], _, _, _ => by rw [Binding.replaceAll]
  | ⟨name, source⟩ :: rest, earlier, parents, planned => by
      rw [sourceParents] at planned
      split at planned
      · cases planned
      · obtain ⟨parent, planParent, planned⟩ := bind_eq_ok planned
        obtain ⟨others, planRest, _⟩ := bind_eq_ok planned
        rw [Binding.replaceAll, (sourceParent_ok planParent).1.replace_eq,
          replaceAll_of_sourceParents rest planRest]

theorem sourceParents_replaceAll (keeps : replacements.KeepForm) (bindings : List Binding) :
    ∀ {earlier : List Binding}, sourceParents earlier (Binding.replaceAll replacements bindings) =
      sourceParents earlier bindings := by
  induction bindings with
  | nil =>
      intro earlier
      rw [Binding.replaceAll]
  | cons binding rest ih =>
      intro earlier
      obtain ⟨name, source⟩ := binding
      rw [Binding.replaceAll, sourceParents, sourceParents, sourceParent_replace keeps]
      cases planned : sourceParent earlier source with
      | error rejection => rfl
      | ok parent =>
          -- an eligible source stays, so the sources behind it see the same bindings
          rw [(sourceParent_ok planned).1.replace_eq, ih]

/-! ## Sides of equalities -/

theorem replace_of_pathOwner? {name : String} : (query : Query) → pathOwner? query = some name →
    query.replace replacements = query
  | .reference _, _ => by rw [Query.replace]
  | .step base _ _, owned => by rw [Query.replace, replace_of_pathOwner? base owned]
  | .parenthesized inner, owned => by rw [Query.replace, replace_of_pathOwner? inner owned]

theorem pathOwner?_replace (keeps : replacements.KeepForm) : (query : Query) →
    pathOwner? (query.replace replacements) = pathOwner? query
  | .reference _ | .constant _ | .document _ | .pair _ _ | .element _ _ | .join _ _ _ _
  | .letIn _ _ => by simp only [Query.replace, pathOwner?]
  | .parenthesized inner => by
      rw [Query.replace, pathOwner?, pathOwner?, pathOwner?_replace keeps inner]
  | .step base _ _ => by
      rw [Query.replace, pathOwner?, pathOwner?, pathOwner?_replace keeps base]
  | .flwr bindings lets condition result => by
      obtain ⟨other, form⟩ := Query.exists_replace_flwr keeps bindings lets condition result
      rw [form]
      rfl

theorem unparenthesized_replace (keeps : replacements.KeepForm) : (query : Query) →
    (query.replace replacements).unparenthesized = query.unparenthesized.replace replacements
  | .reference _ | .constant _ | .document _ | .pair _ _ | .step _ _ _ | .element _ _
  | .join _ _ _ _ | .letIn _ _ => by
      rw [Query.replace]
      simp only [Query.unparenthesized, Query.replace]
  | .parenthesized inner => by
      rw [Query.replace, Query.unparenthesized, Query.unparenthesized,
        unparenthesized_replace keeps inner]
  | .flwr bindings lets condition result => by
      obtain ⟨other, form⟩ := Query.exists_replace_flwr keeps bindings lets condition result
      have whole : (Query.flwr bindings lets condition result).unparenthesized =
          .flwr bindings lets condition result := by simp only [Query.unparenthesized]
      rw [whole, form]
      rfl

/-- A side that is no constant is a path off the variable of a binding. -/
theorem operand?_eq_of_path (bindings : List Binding) {query : Query}
    (path : ∀ value, query.unparenthesized ≠ .constant value) :
    operand? bindings query = (pathOwner? query).bind fun name =>
      (bindings.findIdx? (·.name == name)).map (Operand.path · query.unparenthesized) := by
  rw [operand?, ← pathOwner?_unparenthesized]
  split
  · rename_i value constant
    exact absurd constant (path value)
  · cases pathOwner? query.unparenthesized with
    | none => rfl
    | some name =>
        rw [Option.bind_some]
        show ((bindings.findIdx? _).bind _) = _
        cases bindings.findIdx? (·.name == name) <;> rfl

theorem replace_of_constant? {value : String} : (query : Query) →
    query.constant? = some value → query.replace replacements = query
  | .constant _, _ => by rw [Query.replace]
  | .parenthesized inner, constant => by rw [Query.replace, replace_of_constant? inner constant]

/-- Nothing is replaced in a side of an equality. -/
theorem Operand.Describes.replace_eq {bindings : List Binding} {operand : Operand} {query : Query}
    (describes : operand.Describes bindings query) : query.replace replacements = query := by
  cases operand with
  | constant value => exact replace_of_constant? query describes
  | path owner inner =>
      obtain ⟨_, _, binding, _, owned⟩ := describes
      exact replace_of_pathOwner? query owned

theorem Equality.Describes.replace_eq {bindings : List Binding} {equality : Equality}
    (describes : equality.Describes bindings) :
    equality.source.replace replacements = equality.source := by
  cases describes with
  | intro left right => rw [Condition.replace, left.replace_eq, right.replace_eq]

theorem operand?_replace (keeps : replacements.KeepForm) (bindings : List Binding)
    (query : Query) : operand? bindings (query.replace replacements) = operand? bindings query := by
  cases found : operand? bindings query with
  | some operand => rw [(operand?_ok found).replace_eq, found]
  | none =>
      have path : ∀ value, query.unparenthesized ≠ .constant value := by
        intro value constant
        rw [operand?, constant] at found
        cases found
      have stillPath : ∀ value,
          (query.replace replacements).unparenthesized ≠ .constant value := by
        rw [unparenthesized_replace keeps]
        intro value constant
        cases form : query.unparenthesized with
        | constant value => exact path value form
        | flwr bindings lets condition result =>
            obtain ⟨other, replaced⟩ :=
              Query.exists_replace_flwr keeps bindings lets condition result
            rw [form, replaced] at constant
            cases constant
        | _ =>
            rw [form, Query.replace] at constant
            cases constant
      rw [operand?_eq_of_path bindings path] at found
      rw [operand?_eq_of_path bindings stillPath, pathOwner?_replace keeps]
      cases owned : pathOwner? query with
      | none => rfl
      | some name =>
          rw [owned, Option.bind_some, Option.map_eq_none_iff] at found
          rw [Option.bind_some, found, Option.map_none]

/-! ## Conditions -/

/-- Nothing is replaced in the condition of an eligible expression. -/
theorem replace_of_equalitiesOf {bindings : List Binding} : (condition : Condition) →
    ∀ {equalities : List Equality}, equalitiesOf bindings condition = .ok equalities →
      condition.replace replacements = condition
  | .and left right, _, planned => by
      rw [equalitiesOf] at planned
      obtain ⟨_, planLeft, planned⟩ := bind_eq_ok planned
      obtain ⟨_, planRight, _⟩ := bind_eq_ok planned
      rw [Condition.replace, replace_of_equalitiesOf left planLeft,
        replace_of_equalitiesOf right planRight]
  | .parenthesized inner, _, planned => by
      rw [equalitiesOf] at planned
      rw [Condition.replace, replace_of_equalitiesOf inner planned]
  | .valueEq left right, _, planned => by
      rw [equalitiesOf] at planned
      split at planned
      · rename_i foundLeft foundRight
        rw [Condition.replace, (operand?_ok foundLeft).replace_eq,
          (operand?_ok foundRight).replace_eq]
      · cases planned

theorem equalitiesOf_replace (keeps : replacements.KeepForm) (bindings : List Binding) :
    (condition : Condition) → equalitiesOf bindings (condition.replace replacements) =
      equalitiesOf bindings condition
  | .and left right => by
      rw [Condition.replace, equalitiesOf, equalitiesOf, equalitiesOf_replace keeps bindings left,
        equalitiesOf_replace keeps bindings right]
  | .parenthesized inner => by
      rw [Condition.replace, equalitiesOf, equalitiesOf, equalitiesOf_replace keeps bindings inner]
  | .valueEq left right => by
      rw [Condition.replace, equalitiesOf, equalitiesOf, operand?_replace keeps,
        operand?_replace keeps]
      cases foundLeft : operand? bindings left with
      | none => rfl
      | some leftOperand =>
          cases foundRight : operand? bindings right with
          | none => rfl
          | some rightOperand =>
              rw [(operand?_ok foundLeft).replace_eq, (operand?_ok foundRight).replace_eq]
  | .identityEq _ _ | .empty _ | .someSatisfies _ _ | .or _ _ | .not _ => by
      rw [Condition.replace]
      rfl

/-! ## Results -/

/-- Nothing is replaced in the result of an eligible expression. -/
theorem replace_of_checkResult : (result : Query) → checkResult result = .ok () →
    result.replace replacements = result
  | .reference _, _ => by rw [Query.replace]
  | .parenthesized inner, checked => by rw [Query.replace, replace_of_checkResult inner checked]
  | .element _ body, checked => by rw [Query.replace, replace_of_checkResult body checked]
  | .pair left right, checked => by
      rw [checkResult] at checked
      obtain ⟨_, checkedLeft, checkedRight⟩ := bind_eq_ok checked
      rw [Query.replace, replace_of_checkResult left checkedLeft,
        replace_of_checkResult right checkedRight]
  | .step base _ _, checked => by
      rw [checkResult] at checked
      split at checked
      · cases checked
      · split at checked
        · cases checked
        · rw [Query.replace, replace_of_checkResult base checked]

theorem allowsStep_replace (keeps : replacements.KeepForm) : (query : Query) →
    allowsStep (query.replace replacements) = allowsStep query
  | .reference _ | .constant _ | .document _ | .pair _ _ | .step _ _ _ | .element _ _
  | .join _ _ _ _ | .letIn _ _ => by simp only [Query.replace, allowsStep]
  | .parenthesized inner => by
      rw [Query.replace, allowsStep, allowsStep, allowsStep_replace keeps inner]
  | .flwr bindings lets condition result => by
      obtain ⟨other, form⟩ := Query.exists_replace_flwr keeps bindings lets condition result
      rw [form]
      rfl

theorem checkResult_replace (keeps : replacements.KeepForm) : (result : Query) →
    checkResult (result.replace replacements) = checkResult result
  | .reference _ | .constant _ | .document _ | .join _ _ _ _ | .letIn _ _ => by
      simp only [Query.replace, checkResult]
  | .parenthesized inner => by
      rw [Query.replace, checkResult, checkResult, checkResult_replace keeps inner]
  | .element _ body => by
      rw [Query.replace, checkResult, checkResult, checkResult_replace keeps body]
  | .pair left right => by
      rw [Query.replace, checkResult, checkResult, checkResult_replace keeps left,
        checkResult_replace keeps right]
  | .step base _ _ => by
      rw [Query.replace, checkResult, checkResult, allowsStep_replace keeps,
        checkResult_replace keeps base]
  | .flwr bindings lets condition result => by
      obtain ⟨other, form⟩ := Query.exists_replace_flwr keeps bindings lets condition result
      rw [form]
      rfl

/-! ## Whole expressions -/

theorem checkSources_replaceInside (keeps : replacements.KeepForm) (flwr : Flwr) :
    checkSources (flwr.replaceInside replacements) = checkSources flwr := by
  have lets : (Binding.replaceAll replacements flwr.lets).isEmpty = flwr.lets.isEmpty := by
    cases flwr.lets with
    | nil => rw [Binding.replaceAll]
    | cons binding rest =>
        obtain ⟨name, source⟩ := binding
        rw [Binding.replaceAll]
        rfl
  rw [checkSources, checkSources, Flwr.replaceInside, lets]
  split
  · exact sourceParents_replaceAll keeps flwr.bindings
  · rfl

theorem checkCondition_replaceInside (keeps : replacements.KeepForm) {flwr : Flwr}
    (stays : Binding.replaceAll replacements flwr.bindings = flwr.bindings) :
    checkCondition (flwr.replaceInside replacements) = checkCondition flwr := by
  rw [checkCondition, checkCondition, Flwr.replaceInside, stays]
  cases flwr.condition with
  | none => rw [Condition.replaceIfPresent]
  | some condition =>
      rw [Condition.replaceIfPresent]
      exact equalitiesOf_replace keeps flwr.bindings condition

theorem replaceIfPresent_of_checkCondition {flwr : Flwr} {equalities : List Equality}
    (planned : checkCondition flwr = .ok equalities) :
    Condition.replaceIfPresent replacements flwr.condition = flwr.condition := by
  rw [checkCondition] at planned
  cases present : flwr.condition with
  | none => rw [Condition.replaceIfPresent]
  | some condition =>
      rw [present] at planned
      rw [Condition.replaceIfPresent, replace_of_equalitiesOf condition planned]

theorem replaceAll_of_checkSources {flwr : Flwr} {parents : List (Option Nat)}
    (planned : checkSources flwr = .ok parents) :
    Binding.replaceAll replacements flwr.bindings = flwr.bindings := by
  rw [checkSources] at planned
  split at planned
  · exact replaceAll_of_sourceParents flwr.bindings planned
  · cases planned

/-- Nothing is replaced inside of an expression that passes the checks. -/
theorem replaceInside_of_checks {flwr : Flwr} {parents : List (Option Nat)}
    {equalities : List Equality} (sources : checkSources flwr = .ok parents)
    (condition : checkCondition flwr = .ok equalities) (result : checkResult flwr.result = .ok ()) :
    flwr.replaceInside replacements = flwr := by
  have lets : Binding.replaceAll replacements flwr.lets = flwr.lets := by
    rw [(checkSources_ok sources).1, Binding.replaceAll]
  rw [Flwr.replaceInside, replaceAll_of_checkSources sources, lets,
    replaceIfPresent_of_checkCondition condition, replace_of_checkResult flwr.result result]

end JoinPlan

/-- **Replacing inside of an expression changes nothing about its joins**, and nothing about
why there are none. -/
theorem Flwr.toJoins_replaceInside (keeps : replacements.KeepForm) (flwr : Flwr) :
    (flwr.replaceInside replacements).toJoins = flwr.toJoins := by
  have sameResult : checkResult (flwr.replaceInside replacements).result =
      checkResult flwr.result := checkResult_replace keeps flwr.result
  rw [toJoins, toJoins, checkSources_replaceInside keeps, sameResult]
  cases sources : checkSources flwr with
  | error rejection => rfl
  | ok parents =>
      rw [checkCondition_replaceInside keeps (replaceAll_of_checkSources sources)]
      cases condition : checkCondition flwr with
      | error rejection => rfl
      | ok equalities =>
          cases result : checkResult flwr.result with
          | error rejection => rfl
          | ok _ => rw [replaceInside_of_checks sources condition result]

end TreeQuery
