import TreeQuery.Proofs.JoinPlan.Replacement
import TreeQuery.Proofs.JoinPlan.Soundness
import TreeQuery.Proofs.Query.PrintableRenaming

/-!
# Joins can be printed

Join planning makes up names: a fresh name is that of a tag, or that tag with a number behind
an underscore, which no reserved word has.  The fields of tuples are named after variables, so
these must be names that a tag can have, as they are in a renamed query.  The rest of an
expression over joined tuples has been part of the expression that it replaces, but it has
steps off other paths: a path off a variable becomes one off the field of a tuple.

So an optimized query is printable up to such steps if all its variables could be tags
(`Query.isPrintable_replace`).
-/

set_option autoImplicit false

namespace TreeQuery

open Grammar JoinPlan

/-! ## Fresh names -/

/-- A name with a number could be a tag if the name could. -/
theorem isTagName_numberedName {base : String} (isTag : isTagName base = true) (number : Nat) :
    isTagName (numberedName base number) = true := by
  have named : isName (numberedName base number) = true :=
    isName_append (isName_append (isName_of_isTagName isTag) (List.all_eq_true.mp (by decide)))
      continuesName_of_mem_toString
  have unreserved : numberedName base number ∉ reservedWords := by
    intro listed
    have joined : ∀ word ∈ reservedWords, '_' ∉ word.toList := by decide
    exact joined _ listed (by simp [numberedName])
  simpa [isTagName, named] using unreserved

/-- A fresh name could be a tag if the name that it resembles could. -/
theorem isTagName_freshName {base : String} (isTag : isTagName base = true)
    (used : List String) : isTagName (freshName used base) = true := by
  rw [freshName]
  cases found : (base :: (List.range (used.length + 1)).map fun count =>
      numberedName base (count + 2)).find? (!used.contains ·) with
  | none => exact isTag
  | some name =>
      rcases List.mem_cons.mp (List.mem_of_find?_eq_some found) with rfl | numbered
      · exact isTag
      · obtain ⟨count, _, rfl⟩ := List.mem_map.mp numbered
        exact isTagName_numberedName isTag _

/-- The tag at the end of a printable path. -/
theorem Path.isTagName_of_lastTag? {name : String} : (path : Path) →
    path.isPrintable = true → path.lastTag? = some name → isTagName name = true
  | .tag _, printable, last => Option.some.inj last ▸ printable
  | .parenthesized inner, printable, last => inner.isTagName_of_lastTag? printable last
  | .filtered base _, printable, last => by
      rw [isPrintable, Bool.and_eq_true] at printable
      exact base.isTagName_of_lastTag? printable.1 last
  | .step _ _ right, printable, last => by
      rw [isPrintable, Bool.and_eq_true] at printable
      exact right.isTagName_of_lastTag? printable.2 last

section

variable {binder : String → Bool} {base : Query → Bool}

theorem JoinPlan.isTagName_keyBase (query : Query)
    (printable : query.isPrintableWith binder base = true) : isTagName (keyBase query) = true := by
  cases query with
  | step query axis path =>
      rw [Query.isPrintableWith, Bool.and_eq_true] at printable
      rw [keyBase]
      cases last : path.lastTag? with
      | none => decide
      | some name => exact path.isTagName_of_lastTag? printable.2 last
  | _ =>
      have isTag : isTagName keyName = true := by decide
      exact isTag

/-! ## Lists of queries and bindings -/

theorem Query.isPrintable_sequence {queries : List Query}
    (all : ∀ query ∈ queries, query.isPrintableWith binder base = true) {query : Query}
    (made : Query.sequence queries = some query) : query.isPrintableWith binder base = true := by
  refine leftNested_induction (fun left right => ?_) all made
  rw [isPrintableWith, left, right, Bool.and_true]

theorem Condition.isPrintable_conjunction {conditions : List Condition}
    (all : ∀ condition ∈ conditions, condition.isPrintableWith binder base = true) :
    Condition.isPrintableIfPresent binder base (Condition.conjunction conditions) = true := by
  cases made : Condition.conjunction conditions with
  | none => rfl
  | some condition =>
      show condition.isPrintableWith binder base = true
      refine leftNested_induction (fun left right => ?_) all made
      rw [isPrintableWith, left, right, Bool.and_true]

theorem Binding.arePrintable_iff {bindings : List Binding} :
    Binding.arePrintableWith binder base bindings = true ↔ ∀ binding ∈ bindings,
      isName binding.name = true ∧ binder binding.name = true ∧
        binding.source.isPrintableWith binder base = true := by
  induction bindings with
  | nil => simp [arePrintableWith]
  | cons binding rest ih =>
      obtain ⟨name, source⟩ := binding
      rw [arePrintableWith, Bool.and_eq_true, ih, List.forall_mem_cons]
      simp [and_assoc]

/-! ## Equalities -/

theorem Query.isPrintable_unparenthesized (query : Query)
    (printable : query.isPrintableWith binder base = true) :
    query.unparenthesized.isPrintableWith binder base = true := by
  induction query using Query.unparenthesized.induct with
  | case1 inner ih =>
      rw [isPrintableWith] at printable
      exact ih printable
  | case2 query other => rwa [Query.unparenthesized.eq_2 query other]

theorem JoinPlan.isPrintable_of_equalitiesOf {bindings : List Binding} : (condition : Condition) →
    condition.isPrintableWith binder base = true → ∀ {equalities : List Equality},
      equalitiesOf bindings condition = .ok equalities →
        ∀ equality ∈ equalities, equality.source.isPrintableWith binder base = true
  | .and left right, printable, equalities, planned => by
      rw [Condition.isPrintableWith, Bool.and_eq_true] at printable
      rw [equalitiesOf] at planned
      obtain ⟨first, planLeft, planned⟩ := bind_eq_ok planned
      obtain ⟨second, planRight, planned⟩ := bind_eq_ok planned
      obtain rfl : first ++ second = equalities := Except.ok.inj planned
      exact List.forall_mem_append.mpr
        ⟨isPrintable_of_equalitiesOf left printable.1 planLeft,
          isPrintable_of_equalitiesOf right printable.2 planRight⟩
  | .parenthesized inner, printable, equalities, planned => by
      rw [Condition.isPrintableWith] at printable
      rw [equalitiesOf] at planned
      exact isPrintable_of_equalitiesOf inner printable planned
  | .valueEq left right, printable, equalities, planned => by
      rw [equalitiesOf] at planned
      split at planned
      · obtain rfl := Except.ok.inj planned
        exact List.forall_mem_singleton.mpr printable
      · cases planned

/-- A path that is a side of a printable equality is printable. -/
theorem JoinPlan.Operand.Describes.isPrintable {bindings : List Binding} {owner : Nat}
    {inner query : Query} (describes : (Operand.path owner inner).Describes bindings query)
    (printable : query.isPrintableWith binder base = true) :
    inner.isPrintableWith binder base = true := by
  obtain ⟨_, rfl, _⟩ := describes
  exact query.isPrintable_unparenthesized printable

/-- The sides of printable equalities are printable. -/
theorem JoinPlan.isPrintable_of_isSide {bindings : List Binding} {equalities : List Equality}
    {grouping : Grouping} {endpoint : Endpoint}
    (describes : ∀ equality ∈ equalities, equality.Describes bindings)
    (printable : ∀ equality ∈ equalities, equality.source.isPrintableWith binder base = true)
    (isSide : IsSide grouping equalities endpoint) :
    endpoint.query.isPrintableWith binder base = true := by
  obtain ⟨cross, listed, side⟩ := isSide
  obtain ⟨equality, member, owner, query, other, otherQuery, left, right, _, rfl⟩ :=
    mem_crossEqualities.mp listed
  have printable := printable equality member
  cases describes equality member with
  | intro leftDescribes rightDescribes =>
      subst left right
      rw [Condition.isPrintableWith, Bool.and_eq_true] at printable
      rcases side with rfl | rfl
      · exact leftDescribes.isPrintable printable.1
      · exact rightDescribes.isPrintable printable.2

/-- The tag of the field that holds a printable side is a name. -/
theorem JoinPlan.Keys.Names.isName {reserved : List String} {IsSide : Endpoint → Prop} {keys : Keys}
    {endpoint : Endpoint} {tag : String} (names : keys.Names endpoint tag)
    (sound : keys.Sound reserved IsSide)
    (printable : endpoint.query.isPrintableWith binder base = true) :
    Grammar.isName tag = true := by
  rcases names with reference | listed
  · rwa [reference, Query.isPrintableWith] at printable
  · obtain ⟨used, resembles⟩ := sound.resembles _ listed
    obtain rfl : tag = freshName used (keyBase endpoint.query) := resembles
    exact isName_of_isTagName (isTagName_freshName (isTagName_keyBase _ printable) used)

/-! ## Tuples -/

theorem JoinPlan.isPrintable_groupQuery {bindings : List Binding} {conditions : List Condition}
    {keys : List KeyField} {query : Query} (bound : bindings ≠ [])
    (printableBindings : Binding.arePrintableWith binder base bindings = true)
    (printableConditions : ∀ condition ∈ conditions, condition.isPrintableWith binder base = true)
    (printableKeys : ∀ key ∈ keys,
      isName key.tag = true ∧ key.query.isPrintableWith binder base = true)
    (planned : groupQuery bindings conditions keys = .ok query) :
    query.isPrintableWith binder base = true := by
  rw [groupQuery] at planned
  split at planned
  · cases planned
  · rename_i body made
    obtain rfl := Except.ok.inj planned
    have printableBody : body.isPrintableWith binder base = true := by
      refine Query.isPrintable_sequence (List.forall_mem_append.mpr ⟨?_, ?_⟩) made
      · refine List.forall_mem_map.mpr fun binding member => ?_
        have named := (Binding.arePrintable_iff.mp printableBindings binding member).1
        rw [variableField, Query.isPrintableWith, Query.isPrintableWith, named]
        rfl
      · refine List.forall_mem_map.mpr fun key member => ?_
        rw [Query.isPrintableWith, (printableKeys key member).1, (printableKeys key member).2]
        rfl
    have named : isName tupleName = true := by decide
    rw [Query.isPrintableWith, List.isEmpty_eq_false_iff.mpr bound, printableBindings,
      Condition.isPrintable_conjunction printableConditions, Query.isPrintableWith, named,
      printableBody, Binding.arePrintableWith]
    rfl

theorem JoinPlan.isPrintable_joinChain : {stages : List (Query × List (String × String))} →
    {first : Query} → first.isPrintableWith binder base = true →
      (∀ stage ∈ stages, stage.1.isPrintableWith binder base = true ∧
        ∀ tags ∈ stage.2, isName tags.1 = true ∧ isName tags.2 = true) →
        (joinChain first stages).isPrintableWith binder base = true
  | [], _, printable, _ => printable
  | (query, tags) :: rest, first, printable, stages => by
      obtain ⟨⟨printableQuery, named⟩, restStages⟩ := List.forall_mem_cons.mp stages
      rw [joinChain, List.foldl_cons]
      refine isPrintable_joinChain ?_ restStages
      simp only [Query.isPrintableWith, printable, printableQuery, Bool.true_and,
        Bool.and_eq_true, List.all_eq_true, List.forall_mem_map]
      exact ⟨fun pair listed => (named pair listed).1, fun pair listed => (named pair listed).2⟩

end

section

variable {binder : String → Bool}

/-- Reading variables from the fields of a tuple leaves a query printable. -/
theorem JoinPlan.isPrintable_project {tuple : String} {boundNames : List String}
    (named : isName tuple = true) (tags : ∀ name ∈ boundNames, isTagName name = true) :
    (query : Query) → query.isPrintableWith binder anyBase = true →
      (project tuple boundNames query).isPrintableWith binder anyBase = true
  | .reference name, printable => by
      rw [project]
      split
      · rename_i listed
        have isTag := tags name (List.contains_iff_mem.mp listed)
        simp [Query.isPrintableWith, Path.isPrintable, anyBase, named, isTag]
      · exact printable
  | .parenthesized inner, printable => by
      rw [Query.isPrintableWith] at printable
      rw [project, Query.isPrintableWith]
      exact isPrintable_project named tags inner printable
  | .pair left right, printable => by
      rw [Query.isPrintableWith, Bool.and_eq_true] at printable
      rw [project, Query.isPrintableWith, isPrintable_project named tags left printable.1,
        isPrintable_project named tags right printable.2]
      rfl
  | .step base axis path, printable => by
      simp only [Query.isPrintableWith, Bool.and_eq_true] at printable
      rw [project, Query.isPrintableWith, isPrintable_project named tags base printable.1.2,
        printable.2]
      rfl
  | .element name body, printable => by
      rw [Query.isPrintableWith, Bool.and_eq_true] at printable
      rw [project, Query.isPrintableWith, printable.1,
        isPrintable_project named tags body printable.2]
      rfl
  | .constant _, printable | .document _, printable | .join _ _ _ _, printable
  | .letIn _ _, printable | .flwr _ _ _ _, printable => printable

end

/-! ## Joins for a `for` expression -/

namespace JoinPlan.Plan.Rewrites

section

variable {binder : String → Bool} {base : Query → Bool}
variable {plan : Plan} {flwr : Flwr} {query : Query} (rewrites : plan.Rewrites flwr query)
variable (printable : flwr.toQuery.isPrintableWith binder base = true)
include rewrites printable

theorem isPrintable_bindings : Binding.arePrintableWith binder base plan.bindings = true := by
  simp only [Flwr.toQuery, Query.isPrintableWith, Bool.and_eq_true] at printable
  exact rewrites.bindings ▸ printable.1.1.1.2

theorem isPrintable_equalities :
    ∀ equality ∈ plan.equalities, equality.source.isPrintableWith binder base = true := by
  simp only [Flwr.toQuery, Query.isPrintableWith, Bool.and_eq_true] at printable
  have condition := rewrites.condition
  rw [checkCondition] at condition
  cases present : flwr.condition with
  | none =>
      rw [present] at condition
      rw [← Except.ok.inj condition]
      exact List.forall_mem_nil _
  | some whole =>
      rw [present] at condition printable
      exact isPrintable_of_equalitiesOf whole printable.1.2 condition

theorem isPrintable_side {endpoint : Endpoint}
    (isSide : IsSide plan.grouping plan.equalities endpoint) :
    endpoint.query.isPrintableWith binder base = true :=
  isPrintable_of_isSide rewrites.describes (rewrites.isPrintable_equalities printable) isSide

theorem isName_of_names {endpoint : Endpoint} {tag : String} (names : plan.keys.Names endpoint tag)
    (isSide : IsSide plan.grouping plan.equalities endpoint) : Grammar.isName tag = true :=
  names.isName rewrites.sound (rewrites.isPrintable_side printable isSide)

/-- The queries for tuples are printable. -/
theorem isPrintable_tuples {group : Nat} {tuples : Query}
    (planned : groupQuery (plan.bindingsOf group) (plan.conditionsOf group)
      (plan.keys.fields.filter (·.group = group)) = .ok tuples) :
    tuples.isPrintableWith binder base = true := by
  have keySide : ∀ key ∈ plan.keys.fields.filter (·.group = group),
      IsSide plan.grouping plan.equalities ⟨group, key.query⟩ := by
    intro key member
    obtain ⟨listed, here⟩ := List.mem_filter.mp member
    exact of_decide_eq_true here ▸ rewrites.sound.sides key listed
  refine isPrintable_groupQuery (fun unbound => ?_) ?_ ?_ ?_ planned
  · -- a group that binds nothing has no sides, so its tuples would have no fields
    have keyless : plan.keys.fields.filter (·.group = group) = [] := by
      refine List.eq_nil_iff_forall_not_mem.mpr fun key member => ?_
      obtain ⟨name, bound, _⟩ :=
        owned_of_isSide rewrites.areParents rewrites.describes (keySide key member)
      rw [unbound] at bound
      exact nomatch bound
    rw [unbound, keyless] at planned
    exact nomatch planned
  · have all := Binding.arePrintable_iff.mp (rewrites.isPrintable_bindings printable)
    refine Binding.arePrintable_iff.mpr fun binding member => all binding ?_
    exact (Grouping.bindingsOf_sublist rewrites.areParents group).subset member
  · intro condition member
    obtain ⟨equality, listed, _, rfl⟩ := mem_groupConditions.mp member
    exact rewrites.isPrintable_equalities printable equality listed
  · intro key member
    have isSide := rewrites.sound.sides key (List.mem_of_mem_filter member)
    exact ⟨rewrites.isName_of_names printable (.inr (List.mem_of_mem_filter member)) isSide,
      rewrites.isPrintable_side printable isSide⟩

/-- The tags of a join are names. -/
theorem isName_of_namesBoth {added : Nat} {tags : List (String × String)}
    (names : List.Forall₂ plan.keys.NamesBoth
      ((crossEqualities plan.grouping plan.equalities).filterMap (·.orient added)) tags) :
    ∀ pair ∈ tags, Grammar.isName pair.1 = true ∧ Grammar.isName pair.2 = true := by
  intro pair member
  obtain ⟨ends, listed, both⟩ := (Gathered.of_forall₂ names).right _ member
  obtain ⟨cross, among, oriented⟩ := List.mem_filterMap.mp listed
  have sides : IsSide plan.grouping plan.equalities ends.1 ∧
      IsSide plan.grouping plan.equalities ends.2 := by
    rcases (CrossEquality.orient_eq_some oriented).2.2 with ⟨first, second⟩ | ⟨first, second⟩
    · exact ⟨⟨cross, among, .inl first⟩, ⟨cross, among, .inr second⟩⟩
    · exact ⟨⟨cross, among, .inr first⟩, ⟨cross, among, .inl second⟩⟩
  exact ⟨rewrites.isName_of_names printable both.1 sides.1,
    rewrites.isName_of_names printable both.2 sides.2⟩

end

end JoinPlan.Plan.Rewrites

/-- **What an expression is rewritten to is printable** if the expression is and its variables
could be tags. -/
theorem Flwr.isPrintable_toJoins {flwr : Flwr} {query : Query}
    (rewritten : flwr.toJoins = .ok query)
    (printable : flwr.toQuery.isPrintableWith isTagName anyBase = true) :
    query.isPrintableWith isTagName anyBase = true := by
  obtain ⟨plan, rewrites⟩ := toJoins_ok rewritten
  obtain ⟨_, first, stages, _, ⟨used, rfl⟩, firstPlanned, planned, rfl⟩ := rewrites.chain
  have isTag : isTagName (freshName used tupleName) = true :=
    isTagName_freshName (by decide) used
  have tuples : (joinChain first stages).isPrintableWith isTagName anyBase = true := by
    refine isPrintable_joinChain (rewrites.isPrintable_tuples printable firstPlanned) ?_
    intro stage member
    obtain ⟨added, _, tuplesPlanned, names⟩ := (Gathered.of_forall₂ planned).right _ member
    exact ⟨rewrites.isPrintable_tuples printable tuplesPlanned,
      rewrites.isName_of_namesBoth printable names⟩
  have bindings := Binding.arePrintable_iff.mp (rewrites.isPrintable_bindings printable)
  have tags : ∀ name ∈ flwr.bindings.map (·.name), isTagName name = true := by
    rw [← rewrites.bindings]
    exact List.forall_mem_map.mpr fun binding member => (bindings binding member).2.1
  simp only [toQuery, Query.isPrintableWith, Bool.and_eq_true] at printable
  have result := isPrintable_project (isName_of_isTagName isTag) tags flwr.result printable.2
  simp [Query.isPrintableWith, Binding.arePrintableWith, Condition.isPrintableIfPresent,
    isName_of_isTagName isTag, isTag, tuples, result]

/-! ## Optimized queries -/

section

variable {replacements : Replacements}

mutual
/-- A query with `for` expressions replaced is printable if the query is and its variables
could be tags. -/
theorem Query.isPrintable_replace (planned : replacements.Planned) : (query : Query) →
    query.isPrintableWith isTagName anyBase = true →
      (query.replace replacements).isPrintableWith isTagName anyBase = true
  | .reference _, printable | .constant _, printable | .document _, printable => by
      rwa [Query.replace]
  | .parenthesized inner, printable => by
      rw [Query.isPrintableWith] at printable
      rw [Query.replace, Query.isPrintableWith, inner.isPrintable_replace planned printable]
  | .pair left right, printable => by
      rw [Query.isPrintableWith, Bool.and_eq_true] at printable
      rw [Query.replace, Query.isPrintableWith, left.isPrintable_replace planned printable.1,
        right.isPrintable_replace planned printable.2]
      rfl
  | .step base _ _, printable => by
      simp only [Query.isPrintableWith, Bool.and_eq_true] at printable
      rw [Query.replace, Query.isPrintableWith, base.isPrintable_replace planned printable.1.2,
        printable.2]
      rfl
  | .element _ body, printable => by
      rw [Query.isPrintableWith, Bool.and_eq_true] at printable
      rw [Query.replace, Query.isPrintableWith, printable.1,
        body.isPrintable_replace planned printable.2]
      rfl
  | .join left right _ _, printable => by
      simp only [Query.isPrintableWith, Bool.and_eq_true] at printable
      rw [Query.replace, Query.isPrintableWith, left.isPrintable_replace planned printable.1.1.1,
        right.isPrintable_replace planned printable.1.1.2, printable.1.2, printable.2]
      rfl
  | .letIn bindings body, printable => by
      simp only [Query.isPrintableWith, Bool.and_eq_true] at printable
      obtain ⟨same, all⟩ := Binding.arePrintable_replaceAll planned bindings printable.1.2
      rw [Query.replace, Query.isPrintableWith, same, printable.1.1, all,
        body.isPrintable_replace planned printable.2]
      rfl
  | .flwr bindings lets condition result, printable => by
      rw [Query.replace]
      cases replaced : replacements ⟨bindings, lets, condition, result⟩ with
      | some query => exact Flwr.isPrintable_toJoins (planned _ _ replaced) printable
      | none =>
          simp only [Query.isPrintableWith, Bool.and_eq_true] at printable
          obtain ⟨⟨⟨⟨bound, printableBindings⟩, printableLets⟩, printableWhere⟩, printableResult⟩ :=
            printable
          obtain ⟨same, all⟩ := Binding.arePrintable_replaceAll planned bindings printableBindings
          rw [Option.getD_none, Query.isPrintableWith, same, bound, all,
            (Binding.arePrintable_replaceAll planned lets printableLets).2,
            Condition.isPrintable_replaceIfPresent planned condition printableWhere,
            result.isPrintable_replace planned printableResult]
          rfl

theorem Condition.isPrintable_replace (planned : replacements.Planned) : (condition : Condition) →
    condition.isPrintableWith isTagName anyBase = true →
      (condition.replace replacements).isPrintableWith isTagName anyBase = true
  | .valueEq left right, printable | .identityEq left right, printable => by
      rw [Condition.isPrintableWith, Bool.and_eq_true] at printable
      rw [Condition.replace, Condition.isPrintableWith,
        left.isPrintable_replace planned printable.1,
        right.isPrintable_replace planned printable.2]
      rfl
  | .empty query, printable => by
      rw [Condition.isPrintableWith] at printable
      rw [Condition.replace, Condition.isPrintableWith, query.isPrintable_replace planned printable]
  | .someSatisfies bindings body, printable => by
      simp only [Condition.isPrintableWith, Bool.and_eq_true] at printable
      obtain ⟨same, all⟩ := Binding.arePrintable_replaceAll planned bindings printable.1.2
      rw [Condition.replace, Condition.isPrintableWith, same, printable.1.1, all,
        body.isPrintable_replace planned printable.2]
      rfl
  | .parenthesized inner, printable | .not inner, printable => by
      rw [Condition.isPrintableWith] at printable
      rw [Condition.replace, Condition.isPrintableWith, inner.isPrintable_replace planned printable]
  | .and left right, printable | .or left right, printable => by
      rw [Condition.isPrintableWith, Bool.and_eq_true] at printable
      rw [Condition.replace, Condition.isPrintableWith,
        left.isPrintable_replace planned printable.1,
        right.isPrintable_replace planned printable.2]
      rfl

theorem Condition.isPrintable_replaceIfPresent (planned : replacements.Planned) :
    (condition : Option Condition) →
    Condition.isPrintableIfPresent isTagName anyBase condition = true →
      Condition.isPrintableIfPresent isTagName anyBase
        (Condition.replaceIfPresent replacements condition) = true
  | none, _ => rfl
  | some condition, printable => by
      rw [Condition.isPrintableIfPresent] at printable
      rw [Condition.replaceIfPresent, Condition.isPrintableIfPresent,
        condition.isPrintable_replace planned printable]

theorem Binding.arePrintable_replaceAll (planned : replacements.Planned) :
    (bindings : List Binding) →
    Binding.arePrintableWith isTagName anyBase bindings = true →
      (Binding.replaceAll replacements bindings).isEmpty = bindings.isEmpty ∧
        Binding.arePrintableWith isTagName anyBase (Binding.replaceAll replacements bindings) = true
  | [], _ => ⟨rfl, rfl⟩
  | ⟨name, source⟩ :: rest, printable => by
      simp only [Binding.arePrintableWith, Bool.and_eq_true] at printable
      obtain ⟨_, all⟩ := Binding.arePrintable_replaceAll planned rest printable.2
      rw [Binding.replaceAll, Binding.arePrintableWith, printable.1.1.1, printable.1.1.2,
        source.isPrintable_replace planned printable.1.2, all]
      exact ⟨rfl, rfl⟩
end

end

/-- **An optimized query is printable** up to steps off other paths if the query is and its
variables could be tags. -/
theorem Query.isPrintable_optimize (query : Query)
    (printable : query.isPrintableWith isTagName anyBase = true) :
    query.optimize.query.isPrintableWith isTagName anyBase = true := by
  rw [query.optimize_query]
  exact query.isPrintable_replace Replacements.planned_joins printable

end TreeQuery
