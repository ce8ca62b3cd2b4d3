import TreeQuery.Proofs.JoinPlan.Shape
import TreeQuery.Proofs.Query.FreeNames

/-!
# Splitting conditions

The condition of an expression that passes the checks is a conjunction of equalities, and these
are put into buckets: one for those without variables, two for every group, and one for those
between groups (`buckets`).  Nothing is lost on the way (`Flwr.condition_splits`).  The buckets
together have every conjunct as often as the condition has it, each bucket has them in their
order, and a conjunct is where its variables say.  So the condition, which only reads, holds
exactly if all conjuncts in all buckets do.
-/

set_option autoImplicit false

namespace TreeQuery

open Evaluation JoinPlan

/-! ## Members with different keys -/

theorem filter_append_filter_perm {α : Type} {first second : α → Bool} {members : List α}
    (apart : ∀ member ∈ members, first member = true → second member = false) :
    (members.filter first ++ members.filter second).Perm
      (members.filter fun member => first member || second member) := by
  have parts := List.filter_append_perm first
    (members.filter fun member => first member || second member)
  rw [List.filter_filter, List.filter_filter] at parts
  refine (List.Perm.of_eq ?_).trans parts
  congr 1
  · apply List.filter_congr
    intro member _
    cases first member <;> rfl
  · apply List.filter_congr
    intro member listed
    cases holds : first member with
    | false => rfl
    | true => rw [apart member listed holds]; rfl

/-- The members with the first of some keys, those with the second, and so on, are all members
with one of the keys. -/
theorem flatMap_filter_perm {α κ : Type} [DecidableEq κ] (key : α → κ) {keys : List κ}
    (different : keys.Nodup) (members : List α) :
    (keys.flatMap fun value => members.filter (key · = value)).Perm
      (members.filter (key · ∈ keys)) := by
  induction keys with
  | nil => simp
  | cons value rest ih =>
      obtain ⟨fresh, different⟩ := List.nodup_cons.mp different
      rw [List.flatMap_cons]
      refine ((ih different).append_left _).trans ((filter_append_filter_perm ?_).trans ?_)
      · intro member _ isFirst
        rw [of_decide_eq_true isFirst]
        exact decide_eq_false fresh
      · apply List.Perm.of_eq
        apply List.filter_congr
        intro member _
        simp [Bool.decide_or]

/-! ## Variables of conjuncts -/

theorem Query.free_unparenthesized (bound : List String) (query : Query) :
    query.unparenthesized.free bound = query.free bound := by
  induction query using Query.unparenthesized.induct with
  | case1 inner ih => rw [Query.unparenthesized, ih, Query.free]
  | case2 query other => rw [Query.unparenthesized.eq_2 query other]

theorem Query.free_of_constant? {query : Query} {value : String}
    (constant : query.constant? = some value) : query.free [] = [] := by
  rw [Query.constant?] at constant
  rw [← Query.free_unparenthesized]
  split at constant
  · rename_i same
    rw [same, Query.free]
  · cases constant

/-- A path off a variable refers to this variable only. -/
theorem Query.free_of_pathOwner? {name : String} :
    (query : Query) → pathOwner? query = some name → query.free [] = [name]
  | .reference other, owned => by
      obtain rfl := Option.some.inj owned
      rw [Query.free, if_neg List.not_mem_nil]
  | .step base _ _, owned => by
      rw [Query.free]
      exact base.free_of_pathOwner? owned
  | .parenthesized inner, owned => by
      rw [Query.free]
      exact inner.free_of_pathOwner? owned

/-- The conjuncts of the condition of an expression; without a condition there are none. -/
def Flwr.conjuncts (flwr : Flwr) : List Condition :=
  match flwr.condition with
  | none => []
  | some condition => condition.conjuncts

namespace JoinPlan

variable {grouping : Grouping} {bindings : List Binding} {equalities : List Equality}

/-- A variable of an expression whose binding is in a group. -/
def Grouping.HasVariable (grouping : Grouping) (bindings : List Binding) (group : Nat)
    (name : String) : Prop :=
  ∃ i binding, bindings[i]? = some binding ∧ binding.name = name ∧ grouping.group i = group

/-- A side that is a path refers to one variable, which is in the group of its owner. -/
theorem Operand.Describes.hasVariable {owner : Nat} {inner query : Query}
    (describes : (Operand.path owner inner).Describes bindings query) (grouping : Grouping) :
    ∃ name, query.free [] = [name] ∧
      grouping.HasVariable bindings (grouping.group owner) name := by
  obtain ⟨_, _, binding, found, owned⟩ := describes
  exact ⟨binding.name, query.free_of_pathOwner? owned, owner, binding, found, rfl, rfl⟩

theorem sources_of_equalitiesOf : (condition : Condition) → ∀ {equalities : List Equality},
    equalitiesOf bindings condition = .ok equalities →
      equalities.map (·.source) = condition.conjuncts
  | .and left right, equalities, planned => by
      rw [equalitiesOf] at planned
      obtain ⟨first, planLeft, planned⟩ := bind_eq_ok planned
      obtain ⟨second, planRight, planned⟩ := bind_eq_ok planned
      obtain rfl : first ++ second = equalities := Except.ok.inj planned
      rw [Condition.conjuncts, List.map_append, sources_of_equalitiesOf left planLeft,
        sources_of_equalitiesOf right planRight]
  | .parenthesized inner, equalities, planned => by
      rw [equalitiesOf] at planned
      exact sources_of_equalitiesOf inner planned
  | .valueEq left right, equalities, planned => by
      rw [equalitiesOf] at planned
      split at planned
      · obtain rfl := Except.ok.inj planned
        rfl
      · cases planned

/-- **The equalities are the conjuncts of the condition, in order.** -/
theorem sources_of_checkCondition {flwr : Flwr} (planned : checkCondition flwr = .ok equalities) :
    equalities.map (·.source) = flwr.conjuncts := by
  rw [checkCondition] at planned
  split at planned
  · rename_i absent
    obtain rfl := Except.ok.inj planned
    simp only [Flwr.conjuncts, absent, List.map_nil]
  · rename_i condition present
    simp only [Flwr.conjuncts, present]
    exact sources_of_equalitiesOf condition planned

/-! ## Buckets -/

/-- What the equalities that are kept inside a group can speak of. -/
def Reach.within (count : Nat) : List Reach :=
  .nothing :: ((List.range count).map .restriction ++ (List.range count).map .inside)

theorem Reach.nodup_within (count : Nat) : (Reach.within count).Nodup := by
  have restrictions : ((List.range count).map Reach.restriction).Nodup :=
    List.nodup_range.map fun _ _ same => Reach.restriction.inj same
  have insides : ((List.range count).map Reach.inside).Nodup :=
    List.nodup_range.map fun _ _ same => Reach.inside.inj same
  rw [Reach.within, List.nodup_cons, List.nodup_append]
  refine ⟨by simp, restrictions, insides, ?_⟩
  rintro _ listed _ listedToo rfl
  obtain ⟨_, _, rfl⟩ := List.mem_map.mp listed
  obtain ⟨_, _, same⟩ := List.mem_map.mp listedToo
  cases same

/-- The conditions of equalities by what they speak of: no variable, one group and a constant, one
group only, or two groups. -/
def buckets (grouping : Grouping) (equalities : List Equality) : List (List Condition) :=
  (Reach.within grouping.count).map (sourcesOf grouping equalities) ++
    [(crossEqualities grouping equalities).map (·.source)]

/-- The equalities between groups are those that speak of neither nothing nor a single group. -/
theorem sources_crossEqualities (bounded : ∀ equality ∈ equalities, ∀ owner ∈ equality.owners,
      grouping.group owner < grouping.count) :
    (crossEqualities grouping equalities).map (·.source) =
      (equalities.filter fun equality =>
        !decide (equality.reach grouping ∈ Reach.within grouping.count)).map (·.source) := by
  induction equalities with
  | nil => rfl
  | cons equality rest ih =>
      have others := ih fun other listed => bounded other (List.mem_cons_of_mem equality listed)
      have owned := bounded equality List.mem_cons_self
      rw [crossEqualities] at others ⊢
      rw [List.filterMap_cons, List.filter_cons]
      obtain ⟨left, right, source⟩ := equality
      cases left with
      | constant value =>
          cases right <;> simp_all [Equality.reach, Reach.within, Equality.owners, Operand.owner?]
      | path owner query =>
          cases right with
          | constant value =>
              simp_all [Equality.reach, Reach.within, Equality.owners, Operand.owner?]
          | path other otherQuery =>
              by_cases same : grouping.group owner = grouping.group other <;>
                simp_all [Equality.reach, Reach.within, Equality.owners, Operand.owner?]

/-- **The buckets together have every equality once.** -/
theorem perm_flatten_buckets (bounded : ∀ equality ∈ equalities, ∀ owner ∈ equality.owners,
      grouping.group owner < grouping.count) :
    (buckets grouping equalities).flatten.Perm (equalities.map (·.source)) := by
  have kept := flatMap_filter_perm (·.reach grouping)
    (Reach.nodup_within grouping.count) equalities
  have whole := List.filter_append_perm
    (fun equality : Equality => decide (equality.reach grouping ∈ Reach.within grouping.count))
    equalities
  have inside : ((Reach.within grouping.count).map (sourcesOf grouping equalities)).flatten =
      ((Reach.within grouping.count).flatMap fun reach =>
        equalities.filter (·.reach grouping = reach)).map (·.source) := by
    rw [List.map_flatMap]
    rfl
  rw [buckets, List.flatten_append, List.flatten_singleton, sources_crossEqualities bounded,
    inside, ← List.map_append]
  exact ((kept.append_right _).trans whole).map _

/-- Every bucket has its equalities in their order. -/
theorem sublist_of_mem_buckets (bounded : ∀ equality ∈ equalities, ∀ owner ∈ equality.owners,
      grouping.group owner < grouping.count) {bucket : List Condition}
    (listed : bucket ∈ buckets grouping equalities) :
    bucket.Sublist (equalities.map (·.source)) := by
  rw [buckets, List.mem_append, List.mem_singleton, sources_crossEqualities bounded] at listed
  rcases listed with listed | rfl
  · obtain ⟨reach, _, rfl⟩ := List.mem_map.mp listed
    exact List.filter_sublist.map _
  · exact List.filter_sublist.map _

end JoinPlan

/-! ## Lossless splitting -/

/-- The condition of an expression is split into buckets without loss.  Its conjuncts are value
equalities, and the buckets have each of them once and in their order.  An equality without
variables is in the first bucket; one whose variables are in one group is in a bucket of this
group, and one with variables of two groups is between these.  Wherever the variables of the
expression are bound, its condition is decided by reading only, and it holds exactly if every
equality of every bucket does. -/
structure Flwr.SplitsCondition (flwr : Flwr) (grouping : Grouping) (equalities : List Equality) :
    Prop where
  equality : ∀ conjunct ∈ flwr.conjuncts, ∃ left right, conjunct = .valueEq left right
  complete : (buckets grouping equalities).flatten.Perm flwr.conjuncts
  ordered : ∀ bucket ∈ buckets grouping equalities, bucket.Sublist flwr.conjuncts
  nothing : ∀ condition ∈ sourcesOf grouping equalities .nothing, condition.free [] = []
  restriction : ∀ group, ∀ condition ∈ sourcesOf grouping equalities (.restriction group),
    ∃ name, condition.free [] = [name] ∧ grouping.HasVariable flwr.bindings group name
  inside : ∀ group, ∀ condition ∈ sourcesOf grouping equalities (.inside group),
    ∃ name other, condition.free [] = [name, other] ∧
      grouping.HasVariable flwr.bindings group name ∧
      grouping.HasVariable flwr.bindings group other
  across : ∀ cross ∈ crossEqualities grouping equalities, ∃ left right name other,
    cross.source = .valueEq left right ∧ cross.left.query = left.unparenthesized ∧
      cross.right.query = right.unparenthesized ∧
      left.free [] = [name] ∧ grouping.HasVariable flwr.bindings cross.left.group name ∧
      right.free [] = [other] ∧ grouping.HasVariable flwr.bindings cross.right.group other ∧
      cross.left.group ≠ cross.right.group
  decides : ∀ (library : Library) (scope : Scope) (arena : Arena),
    (∀ binding ∈ flwr.bindings, scope.Binds binding.name) →
      ∃ verdict, Condition.holdsIfPresent library flwr.condition scope arena = .ok verdict arena ∧
        (verdict = true ↔ ∀ bucket ∈ buckets grouping equalities, ∀ condition ∈ bucket,
          condition.holds library scope arena = .ok true arena)

namespace JoinPlan

variable {grouping : Grouping} {bindings : List Binding} {equalities : List Equality}
  {flwr : Flwr} {parents : List (Option Nat)}

/-- What an equality is a condition about, by what it speaks of. -/
theorem Equality.Describes.free_source {equality : Equality}
    (describes : equality.Describes bindings) (grouping : Grouping) :
    match equality.reach grouping with
    | .nothing => equality.source.free [] = []
    | .restriction group => ∃ name, equality.source.free [] = [name] ∧
        grouping.HasVariable bindings group name
    | .inside group => ∃ name other, equality.source.free [] = [name, other] ∧
        grouping.HasVariable bindings group name ∧ grouping.HasVariable bindings group other
    | .across left right => ∃ query otherQuery name other,
        equality.source = .valueEq query otherQuery ∧ left.query = query.unparenthesized ∧
          right.query = otherQuery.unparenthesized ∧
          query.free [] = [name] ∧ grouping.HasVariable bindings left.group name ∧
          otherQuery.free [] = [other] ∧ grouping.HasVariable bindings right.group other ∧
          left.group ≠ right.group := by
  cases describes with
  | @intro left right query otherQuery describesLeft describesRight =>
      cases left with
      | constant value =>
          have noneLeft := query.free_of_constant? describesLeft
          cases right with
          | constant value =>
              show query.free [] ++ otherQuery.free [] = []
              rw [noneLeft, otherQuery.free_of_constant? describesRight, List.append_nil]
          | path owner inner =>
              obtain ⟨name, free, inGroup⟩ := describesRight.hasVariable grouping
              refine ⟨name, ?_, inGroup⟩
              rw [Condition.free, noneLeft, free, List.nil_append]
      | path owner inner =>
          obtain ⟨name, free, inGroup⟩ := describesLeft.hasVariable grouping
          cases right with
          | constant value =>
              refine ⟨name, ?_, inGroup⟩
              rw [Condition.free, free, otherQuery.free_of_constant? describesRight,
                List.append_nil]
          | path twin twinInner =>
              obtain ⟨other, freeToo, inGroupToo⟩ :=
                describesRight.hasVariable grouping
              simp only [Equality.reach]
              by_cases same : grouping.group owner = grouping.group twin
              · rw [if_pos same]
                refine ⟨name, other, ?_, inGroup, same ▸ inGroupToo⟩
                rw [Condition.free, free, freeToo, List.singleton_append]
              · rw [if_neg same]
                exact ⟨query, otherQuery, name, other, rfl, describesLeft.2.1, describesRight.2.1,
                  free, inGroup, freeToo, inGroupToo, same⟩

theorem exists_of_mem_sourcesOf {reach : Reach} {condition : Condition}
    (listed : condition ∈ sourcesOf grouping equalities reach) :
    ∃ equality ∈ equalities, equality.reach grouping = reach ∧ equality.source = condition := by
  obtain ⟨equality, member, same⟩ := List.mem_map.mp listed
  obtain ⟨member, reaches⟩ := List.mem_filter.mp member
  exact ⟨equality, member, of_decide_eq_true reaches, same⟩

/-- The variables of an equality are in groups that there are. -/
theorem group_lt_count_of_checks (areParents : AreParents flwr.bindings parents)
    (planned : checkCondition flwr = .ok equalities) :
    ∀ equality ∈ equalities, ∀ owner ∈ equality.owners,
      (Grouping.ofParents parents).group owner < (Grouping.ofParents parents).count := by
  intro equality member owner owns
  obtain ⟨binding, found⟩ := (describes_of_checkCondition planned equality member).exists_owner owns
  have inside := (List.getElem?_eq_some_iff.mp found).1
  exact Grouping.group_lt_count areParents.earlier (areParents.length ▸ inside)

/-- Where all variables are bound, all equalities hold exactly if those of every bucket do. -/
theorem all_test_iff_buckets (describes : ∀ equality ∈ equalities, equality.Describes bindings)
    (bounded : ∀ equality ∈ equalities, ∀ owner ∈ equality.owners,
      grouping.group owner < grouping.count) {library : Library} {scope : Scope} {arena : Arena}
    (binds : ∀ binding ∈ bindings, scope.Binds binding.name) :
    equalities.all (·.source.test (library.view arena) scope) = true ↔
      ∀ bucket ∈ buckets grouping equalities, ∀ condition ∈ bucket,
        condition.holds library scope arena = .ok true arena := by
  have each : ∀ equality ∈ equalities, equality.source.holds library scope arena =
      .ok (equality.source.test (library.view arena) scope) arena := by
    intro equality member
    exact Condition.holds_test _ ((describes equality member).isTest fun _ _ binding found =>
      binds binding (List.mem_of_getElem? found))
  have member_iff : ∀ condition : Condition,
      (∃ bucket ∈ buckets grouping equalities, condition ∈ bucket) ↔
        ∃ equality ∈ equalities, equality.source = condition := by
    intro condition
    rw [← List.mem_map, ← (perm_flatten_buckets bounded).mem_iff, List.mem_flatten]
  rw [List.all_eq_true]
  constructor
  · intro passes bucket listed condition member
    obtain ⟨equality, among, rfl⟩ := (member_iff condition).mp ⟨bucket, listed, member⟩
    rw [each equality among, passes equality among]
  · intro passes equality among
    obtain ⟨bucket, listed, member⟩ := (member_iff _).mpr ⟨equality, among, rfl⟩
    have holds := passes bucket listed _ member
    rw [each equality among] at holds
    exact (EStateM.Result.ok.inj holds).1

end JoinPlan

/-- **Splitting the condition of an eligible expression loses nothing.** -/
theorem Flwr.condition_splits {flwr : Flwr} {parents : List (Option Nat)}
    {equalities : List Equality} {grouping : Grouping} (sources : checkSources flwr = .ok parents)
    (condition : checkCondition flwr = .ok equalities)
    (groups : planGroups parents = .ok grouping) :
    flwr.SplitsCondition grouping equalities := by
  obtain ⟨_, areParents⟩ := checkSources_ok sources
  obtain ⟨rfl, _, _⟩ := planGroups_ok groups
  have describes := describes_of_checkCondition condition
  have bounded := group_lt_count_of_checks areParents condition
  have conjuncts := sources_of_checkCondition condition
  constructor
  case equality =>
    intro conjunct listed
    rw [← conjuncts] at listed
    obtain ⟨equality, member, rfl⟩ := List.mem_map.mp listed
    cases describes equality member with
    | intro left right => exact ⟨_, _, rfl⟩
  case complete => exact conjuncts ▸ perm_flatten_buckets bounded
  case ordered =>
    intro bucket listed
    exact conjuncts ▸ sublist_of_mem_buckets bounded listed
  case nothing =>
    intro condition listed
    obtain ⟨equality, member, reach, rfl⟩ := exists_of_mem_sourcesOf listed
    have speaks := (describes equality member).free_source (.ofParents parents)
    rwa [reach] at speaks
  case restriction | inside =>
    intro group condition listed
    obtain ⟨equality, member, reach, rfl⟩ := exists_of_mem_sourcesOf listed
    have speaks := (describes equality member).free_source (.ofParents parents)
    rwa [reach] at speaks
  case across =>
    intro cross listed
    obtain ⟨equality, member, found⟩ := List.mem_filterMap.mp listed
    have speaks := (describes equality member).free_source (.ofParents parents)
    split at found
    · rename_i left right reach
      obtain rfl := Option.some.inj found
      rwa [reach] at speaks
    · cases found
  case decides =>
    intro library scope arena binds
    exact ⟨_, (checkCondition_ok condition).2 binds,
      all_test_iff_buckets describes bounded binds⟩

/-- The clauses of `for $a in doc("f")/a, $c in $a/c, $b in doc("g")/b
where ($c = "1" and $a/k = $b/j) and ("x" = "x" and $a/k = $c/k) return $b`. -/
def fourEqualities : Flwr where
  bindings :=
    [⟨"a", .document ⟨"f", .child, .tag "a"⟩⟩, ⟨"c", .step (.reference "a") .child (.tag "c")⟩,
      ⟨"b", .document ⟨"g", .child, .tag "b"⟩⟩]
  lets := []
  condition := some (.and
    (.parenthesized (.and (.valueEq (.reference "c") (.constant "1"))
      (.valueEq (.step (.reference "a") .child (.tag "k"))
        (.step (.reference "b") .child (.tag "j")))))
    (.parenthesized (.and (.valueEq (.constant "x") (.constant "x"))
      (.valueEq (.step (.reference "a") .child (.tag "k"))
        (.step (.reference "c") .child (.tag "k"))))))
  result := .reference "b"

/-- Each of four equalities goes into a bucket of its own: that of the constants, that of the first
group with constants, that inside the first group, and that between the groups. -/
theorem Flwr.condition_splits_fourEqualities :
    ∃ equalities, checkSources fourEqualities = .ok [none, some 0, none] ∧
      checkCondition fourEqualities = .ok equalities ∧
      planGroups [none, some 0, none] = .ok ⟨[0, 0, 1], 2⟩ ∧
      fourEqualities.SplitsCondition ⟨[0, 0, 1], 2⟩ equalities ∧
      buckets ⟨[0, 0, 1], 2⟩ equalities =
        [[.valueEq (.constant "x") (.constant "x")],
          [.valueEq (.reference "c") (.constant "1")], [],
          [.valueEq (.step (.reference "a") .child (.tag "k"))
            (.step (.reference "c") .child (.tag "k"))], [],
          [.valueEq (.step (.reference "a") .child (.tag "k"))
            (.step (.reference "b") .child (.tag "j"))]] := by
  have sources : checkSources fourEqualities = .ok [none, some 0, none] := by rfl
  have groups : planGroups [none, some 0, none] = .ok ⟨[0, 0, 1], 2⟩ := by rfl
  refine ⟨_, sources, rfl, groups, Flwr.condition_splits sources rfl groups, ?_⟩
  decide +kernel

end TreeQuery
