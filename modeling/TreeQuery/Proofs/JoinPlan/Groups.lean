import Mathlib.Data.List.Nodup
import TreeQuery.Proofs.JoinPlan.Eligibility
import TreeQuery.Proofs.JoinPlan.Grouping

/-!
# Rows of groups

The sources of one group do not refer to variables of another, so the rows of the whole
clause are the combinations of the rows of its groups: for every row of the groups before,
in order, every row of the group by itself (`rows_bindingsBefore_succ`).  The sources of a
group are walks off its own earlier variables and off what is bound around the expression
(`areWalks_bindingsOf`), provided that the roots of the expression are.
-/

set_option autoImplicit false

namespace TreeQuery

open Evaluation JoinPlan

variable {library : Library}

/-! ## Roots -/

/-- The sources of bindings that are paths off a document, or off a variable that is not
bound before them. -/
def Binding.rootSources (bound : List String) : List Binding → List Query
  | [] => []
  | ⟨name, source⟩ :: rest =>
      if (pathOwner? source).all (!bound.contains ·) then
        source :: Binding.rootSources (name :: bound) rest
      else Binding.rootSources (name :: bound) rest

theorem Binding.mem_rootSources {binding : Binding} {after : List Binding} :
    (before : List Binding) → ∀ {bound : List String},
      (∀ owner, pathOwner? binding.source = some owner →
        owner ∉ bound ∧ owner ∉ before.map (·.name)) →
      binding.source ∈ Binding.rootSources bound (before ++ binding :: after)
  | [], bound, isRoot => by
      obtain ⟨name, source⟩ := binding
      rw [List.nil_append, Binding.rootSources, if_pos]
      · exact List.mem_cons_self
      · rw [Option.all_eq_true]
        intro owner owned
        simpa using (isRoot owner owned).1
  | ⟨name, source⟩ :: rest, bound, isRoot => by
      have later : binding.source ∈
          Binding.rootSources (name :: bound) (rest ++ binding :: after) := by
        refine Binding.mem_rootSources rest fun owner owned => ?_
        obtain ⟨outside, new⟩ := isRoot owner owned
        rw [List.map_cons, List.mem_cons, not_or] at new
        exact ⟨List.not_mem_cons_of_ne_of_not_mem new.1 outside, new.2⟩
      rw [List.cons_append, Binding.rootSources]
      split
      · exact List.mem_cons_of_mem _ later
      · exact later

theorem Binding.exists_split_of_mem_rootSources {source : Query} : (bindings : List Binding) →
    ∀ {bound : List String}, source ∈ Binding.rootSources bound bindings →
      ∃ before name after, bindings = before ++ ⟨name, source⟩ :: after ∧
        ∀ owner, pathOwner? source = some owner → owner ∉ bound ∧ owner ∉ before.map (·.name)
  | ⟨name, first⟩ :: rest, bound, member => by
      have later : source ∈ Binding.rootSources (name :: bound) rest →
          ∃ before other after, ⟨name, first⟩ :: rest = before ++ ⟨other, source⟩ :: after ∧
            ∀ owner, pathOwner? source = some owner →
              owner ∉ bound ∧ owner ∉ before.map (·.name) := by
        intro member
        obtain ⟨before, other, after, rfl, isRoot⟩ :=
          Binding.exists_split_of_mem_rootSources rest member
        refine ⟨⟨name, first⟩ :: before, other, after, rfl, fun owner owned => ?_⟩
        obtain ⟨outside, new⟩ := isRoot owner owned
        rw [List.mem_cons, not_or] at outside
        rw [List.map_cons, List.mem_cons, not_or]
        exact ⟨outside.2, outside.1, new⟩
      rw [Binding.rootSources] at member
      split at member
      · rename_i isRoot
        rcases List.mem_cons.mp member with rfl | member
        · refine ⟨[], name, rest, rfl, fun owner owned => ⟨?_, List.not_mem_nil⟩⟩
          simpa using (Option.all_eq_true _ _).mp isRoot owner owned
        · exact later member
      · exact later member

/-- A source that can be evaluated is a walk off what is bound. -/
theorem JoinPlan.IsSource.isWalk {source : Query} (isSource : IsSource source) {scope : Scope}
    {before after : Arena} {items : List Item}
    (run : source.evaluate library scope before = .ok items after) :
    source.IsWalk library scope.Binds := by
  cases isSource with
  | @document path content =>
      rw [Query.evaluate, documentPath, documentNode] at run
      cases found : library path.document with
      | ok arena => exact ⟨arena, found⟩
      | error failure =>
          rw [found] at run
          cases run
  | @reference name axis path content =>
      rw [Query.evaluate, Query.evaluate] at run
      cases found : scope.lookup name with
      | some items => exact ⟨items, found⟩
      | none =>
          rw [found] at run
          cases run

/-! ## Clauses of walks -/

/-- Every source of a clause is a walk off the names before it and off what is bound
around. -/
theorem Binding.areWalks_of_splits {bindings : List Binding} : ∀ {bound : String → Prop},
    (∀ before binding after, bindings = before ++ binding :: after →
      binding.source.IsWalk library fun name => name ∈ before.map (·.name) ∨ bound name) →
    Binding.AreWalks library bound bindings := by
  induction bindings with
  | nil => exact fun _ => trivial
  | cons first rest ih =>
      intro bound walks
      obtain ⟨name, source⟩ := first
      refine ⟨?_, ih fun before binding after split => ?_⟩
      · refine Query.IsWalk.mono (fun other => ?_) _ (walks [] ⟨name, source⟩ rest rfl)
        exact fun isBound => isBound.resolve_left (List.not_mem_nil)
      · refine Query.IsWalk.mono (fun other => ?_) _
          (walks (⟨name, source⟩ :: before) binding after (by rw [split, List.cons_append]))
        rw [List.map_cons, List.mem_cons, or_assoc, or_left_comm]
        exact id

theorem Binding.areWalks_append {second : List Binding} : (first : List Binding) →
    ∀ {bound : String → Prop}, Binding.AreWalks library bound first →
      Binding.AreWalks library (fun name => name ∈ first.map (·.name) ∨ bound name) second →
        Binding.AreWalks library bound (first ++ second)
  | [], bound, _, walks => walks.mono second fun _ isBound => isBound.resolve_left List.not_mem_nil
  | ⟨name, source⟩ :: rest, bound, ⟨walks, others⟩, later => by
      refine ⟨walks, Binding.areWalks_append rest others (later.mono second fun other => ?_)⟩
      rw [List.map_cons, List.mem_cons, or_assoc, or_left_comm]
      exact id

/-! ## Rows -/

section Rows

variable {view : View Home} {outer : Scope}

/-- The rows of two clauses in a row. -/
theorem Binding.rows_append (second : List Binding) : (first : List Binding) → ∀ {inner : Scope},
    Binding.rows view outer (first ++ second) inner =
      (Binding.rows view outer first inner).flatMap (Binding.rows view outer second)
  | [], inner => by rw [List.nil_append, Binding.rows, List.flatMap_singleton]
  | ⟨name, source⟩ :: rest, inner => by
      rw [List.cons_append, Binding.rows, Binding.rows, List.flatMap_assoc]
      exact List.flatMap_congr fun item _ => Binding.rows_append second rest

theorem Scope.lookup_eq_none {scope : Scope} {name : String} (new : name ∉ scope.map (·.1)) :
    scope.lookup name = none := by
  rw [List.lookup_eq_none_iff]
  intro entry member
  rw [bne_iff_ne]
  exact fun same => new (List.mem_map.mpr ⟨entry, member, same.symm⟩)

theorem Scope.binds_of_mem {scope : Scope} {name : String} (listed : name ∈ scope.map (·.1)) :
    scope.Binds name := by
  rw [Scope.Binds, ← Option.isSome_iff_exists, ← Option.ne_none_iff_isSome]
  intro absent
  rw [List.lookup_eq_none_iff] at absent
  obtain ⟨entry, member, rfl⟩ := List.mem_map.mp listed
  exact absurd (absent entry member) (by simp)

/-- Bindings of other names in between do not matter. -/
theorem Scope.lookup_apart {inner between : Scope} {name : String}
    (apart : name ∈ inner.map (·.1) ∨ name ∉ between.map (·.1)) :
    (inner ++ between ++ outer).lookup name = (inner ++ outer).lookup name := by
  rw [List.lookup_append, List.lookup_append, List.lookup_append]
  rcases apart with listed | new
  · obtain ⟨items, found⟩ := Scope.binds_of_mem listed
    rw [found]
    rfl
  · rw [Scope.lookup_eq_none new, Option.or_none]

/-- The rows of a clause are the same after a row of variables that the clause does not
refer to. -/
theorem Binding.rows_apart {between : Scope} {bound : String → Prop} : (bindings : List Binding) →
    ∀ {inner : Scope}, Binding.AreWalks library (fun name => name ∈ inner.map (·.1) ∨
      (bound name ∧ name ∉ between.map (·.1))) bindings →
        Binding.rows view outer bindings (inner ++ between) =
          (Binding.rows view outer bindings inner).map (· ++ between)
  | [], inner, _ => by rw [Binding.rows, Binding.rows, List.map_singleton]
  | ⟨name, source⟩ :: rest, inner, ⟨walks, others⟩ => by
      have same : source.walk view (inner ++ between ++ outer) =
          source.walk view (inner ++ outer) :=
        walk_congr (fun name isBound => Scope.lookup_apart (isBound.imp_right And.right)) source
          walks
      rw [Binding.rows, Binding.rows, same, List.map_flatMap]
      refine List.flatMap_congr fun item _ => ?_
      rw [← List.cons_append]
      have later : Binding.AreWalks library (fun other =>
          other ∈ ((name, [item]) :: inner).map (·.1) ∨
            (bound other ∧ other ∉ between.map (·.1))) rest := by
        refine others.mono rest fun other => ?_
        rw [List.map_cons, List.mem_cons, or_assoc]
        exact id
      exact Binding.rows_apart rest later

/-- A row binds the names of its clause. -/
theorem Binding.mem_names_row {bindings : List Binding} {row : Scope}
    (member : row ∈ Binding.rows view outer bindings []) {name : String} :
    name ∈ row.map (·.1) ↔ name ∈ bindings.map (·.name) := by
  obtain ⟨added, rfl, names⟩ := Binding.names_of_mem_rows bindings member
  rw [List.append_nil, names, List.mem_reverse]

/-- Every variable of a row stands for one element or text if every source ends at such
nodes. -/
theorem Binding.isContent_of_mem_rows (formed : view.WellFormed) : (bindings : List Binding) →
    (∀ binding ∈ bindings, IsSource binding.source) → ∀ {inner row : Scope},
      row ∈ Binding.rows view outer bindings inner → ∀ entry ∈ row,
        entry ∈ inner ∨ ∃ item, entry.2 = [item] ∧ item.IsContent view
  | [], _, inner, row, member, entry, listed => by
      rw [Binding.rows, List.mem_singleton] at member
      exact .inl (member ▸ listed)
  | ⟨name, source⟩ :: rest, sources, inner, row, member, entry, listed => by
      rw [Binding.rows, List.mem_flatMap] at member
      obtain ⟨item, reached, member⟩ := member
      have content := (sources _ List.mem_cons_self).isContent formed item reached
      rcases Binding.isContent_of_mem_rows formed rest
        (fun binding later => sources binding (List.mem_cons_of_mem _ later)) member entry listed
        with before | found
      · rcases List.mem_cons.mp before with rfl | before
        · exact .inr ⟨item, rfl, content⟩
        · exact .inl before
      · exact .inr found

end Rows

/-- Every name of a clause stands for one element or text in every row. -/
theorem Binding.lookup_row {view : View Home} {outer : Scope} (formed : view.WellFormed)
    {bindings : List Binding} (sources : ∀ binding ∈ bindings, IsSource binding.source)
    {row : Scope} (member : row ∈ Binding.rows view outer bindings []) {name : String}
    (listed : name ∈ bindings.map (·.name)) :
    ∃ item, row.lookup name = some [item] ∧ item.IsContent view := by
  obtain ⟨items, found⟩ := Scope.binds_of_mem ((Binding.mem_names_row member).mpr listed)
  obtain ⟨before, after, rfl, _⟩ := List.lookup_eq_some_iff.mp found
  rcases Binding.isContent_of_mem_rows formed bindings sources member (name, items) (by simp)
    with none | ⟨item, rfl, content⟩
  · exact nomatch none
  · exact ⟨item, found, content⟩

/-! ## Groups -/

namespace JoinPlan

/-- The bindings of a group, in order. -/
def Grouping.bindingsOf (grouping : Grouping) (bindings : List Binding) (group : Nat) :
    List Binding :=
  (grouping.members group).filterMap (bindings[·]?)

/-- The bindings of the groups before a group. -/
def Grouping.bindingsBefore (grouping : Grouping) (bindings : List Binding) (group : Nat) :
    List Binding :=
  (List.range group).flatMap (grouping.bindingsOf bindings)

section Groups

variable {bindings : List Binding} {parents : List (Option Nat)} {group i : Nat}
variable {binding : Binding}

theorem Grouping.mem_members {grouping : Grouping} :
    i ∈ grouping.members group ↔ i < grouping.groupOf.length ∧ grouping.group i = group := by
  rw [members, List.mem_filter, List.mem_range, decide_eq_true_iff]

theorem Grouping.mem_bindingsOf (areParents : AreParents bindings parents) :
    binding ∈ (ofParents parents).bindingsOf bindings group ↔
      ∃ i, bindings[i]? = some binding ∧ (ofParents parents).group i = group := by
  rw [bindingsOf, List.mem_filterMap]
  refine exists_congr fun i => ?_
  rw [mem_members, length_groupOf, areParents.length]
  constructor
  · exact fun ⟨⟨_, same⟩, found⟩ => ⟨found, same⟩
  · exact fun ⟨found, same⟩ => ⟨⟨(List.getElem?_eq_some_iff.mp found).1, same⟩, found⟩

theorem Grouping.mem_bindingsBefore (areParents : AreParents bindings parents) :
    binding ∈ (ofParents parents).bindingsBefore bindings group ↔
      ∃ i, bindings[i]? = some binding ∧ (ofParents parents).group i < group := by
  rw [bindingsBefore, List.mem_flatMap]
  simp only [List.mem_range, mem_bindingsOf areParents]
  constructor
  · rintro ⟨_, before, i, found, rfl⟩
    exact ⟨i, found, before⟩
  · rintro ⟨i, found, before⟩
    exact ⟨_, before, i, found, rfl⟩

theorem Grouping.bindingsBefore_succ (grouping : Grouping) (bindings : List Binding)
    (group : Nat) : grouping.bindingsBefore bindings (group + 1) =
      grouping.bindingsBefore bindings group ++ grouping.bindingsOf bindings group := by
  rw [bindingsBefore, List.range_succ, List.flatMap_append, List.flatMap_singleton, bindingsBefore]

/-- Parents come first. -/
theorem AreParents.earlier (areParents : AreParents bindings parents) :
    Grouping.Earlier parents := by
  intro i parent linked
  have inside : i < bindings.length :=
    areParents.length ▸ (List.getElem?_eq_some_iff.mp linked).1
  rw [areParents.parent (List.getElem?_eq_getElem inside), Option.some.injEq] at linked
  obtain ⟨owner, _, found⟩ := Option.bind_eq_some_iff.mp linked
  obtain ⟨below, _⟩ := List.findIdx?_eq_some_iff_getElem.mp found
  rw [List.length_take] at below
  exact Nat.lt_of_lt_of_le below (Nat.min_le_left _ _)

/-- **The groups one after the other are the whole clause.** -/
theorem Grouping.bindingsBefore_count (areParents : AreParents bindings parents)
    (contiguous : (ofParents parents).isContiguous = true) :
    (ofParents parents).bindingsBefore bindings (ofParents parents).count = bindings := by
  have members := flatMap_members areParents.earlier contiguous
  have pieces : (ofParents parents).bindingsBefore bindings (ofParents parents).count =
      (List.range parents.length).filterMap (bindings[·]?) := by
    rw [← members, List.filterMap_flatMap]
    rfl
  rw [pieces, areParents.length, filterMap_range_getElem?]

theorem Grouping.bindingsOf_sublist (areParents : AreParents bindings parents) (group : Nat) :
    ((ofParents parents).bindingsOf bindings group).Sublist bindings := by
  have within : ((ofParents parents).members group).Sublist (List.range bindings.length) := by
    rw [members, length_groupOf, areParents.length]
    exact List.filter_sublist
  have pieces := within.filterMap (bindings[·]?)
  rwa [filterMap_range_getElem?] at pieces

/-- A binding without a parent is the first of its group. -/
theorem Grouping.bindingsOf_root (areParents : AreParents bindings parents)
    (found : bindings[i]? = some binding) (root : parents[i]? = some none) :
    ∃ rest, (ofParents parents).bindingsOf bindings ((ofParents parents).group i) =
      binding :: rest := by
  have inside := (List.getElem?_eq_some_iff.mp root).1
  obtain ⟨count, size⟩ := Nat.exists_eq_add_of_lt inside
  have skipped : (List.range i).filter (fun before =>
      (ofParents parents).group before = (ofParents parents).group i) = [] := by
    refine List.filter_eq_nil_iff.mpr fun before listed => ?_
    have less := group_lt_of_root areParents.earlier root (List.mem_range.mp listed)
    simpa using Nat.ne_of_lt less
  rw [bindingsOf, members, length_groupOf, size, Nat.add_assoc, List.range_add,
    List.range_succ_eq_map, List.map_cons, Nat.add_zero, List.filter_append, skipped,
    List.nil_append, List.filter_cons_of_pos (by simp), List.filterMap_cons, found]
  exact ⟨_, rfl⟩

/-- A root is the first source of its group. -/
theorem exists_group_of_mem_rootSources (areParents : AreParents bindings parents)
    {source : Query} (member : source ∈ Binding.rootSources [] bindings) :
    ∃ group < (Grouping.ofParents parents).count, ∃ name rest,
      (Grouping.ofParents parents).bindingsOf bindings group = ⟨name, source⟩ :: rest := by
  obtain ⟨before, name, after, rfl, isRoot⟩ := Binding.exists_split_of_mem_rootSources _ member
  have found : (before ++ ⟨name, source⟩ :: after)[before.length]? = some ⟨name, source⟩ := by simp
  have root : parents[before.length]? = some none := by
    rw [areParents.parent found, List.take_left' rfl]
    cases owned : pathOwner? source with
    | none => rfl
    | some owner =>
        rw [Option.bind_some, Option.some.injEq, List.findIdx?_eq_none_iff]
        intro other listed
        have new := (isRoot owner owned).2
        exact beq_false_of_ne fun same => new (List.mem_map.mpr ⟨other, listed, same⟩)
  obtain ⟨rest, first⟩ := Grouping.bindingsOf_root areParents found root
  exact ⟨_, Grouping.group_lt_count areParents.earlier
    (List.getElem?_eq_some_iff.mp root).1, name, rest, first⟩

/-- In its group a binding stands behind the earlier bindings of the group. -/
theorem Grouping.exists_of_bindingsOf_split {before after : List Binding}
    (split : (ofParents parents).bindingsOf bindings group = before ++ binding :: after) :
    ∃ i, bindings[i]? = some binding ∧ (ofParents parents).group i = group ∧
      ∀ other, other ∈ before ↔
        ∃ j < i, bindings[j]? = some other ∧ (ofParents parents).group j = group := by
  obtain ⟨seen, rest, members, rfl, restEq⟩ := List.filterMap_eq_append_iff.mp split
  obtain ⟨skipped, i, later, rfl, none, found, rfl⟩ := List.filterMap_eq_cons_iff.mp restEq
  have sorted : ((ofParents parents).members group).Pairwise (· < ·) :=
    List.pairwise_lt_range.filter _
  have here : i ∈ (ofParents parents).members group := by
    rw [members]
    simp
  obtain ⟨inside, inGroup⟩ := mem_members.mp here
  refine ⟨i, found, inGroup, fun other => ?_⟩
  constructor
  · intro listed
    obtain ⟨j, member, foundOther⟩ := List.mem_filterMap.mp listed
    have inMembers : j ∈ (ofParents parents).members group := by
      rw [members]
      exact List.mem_append_left _ member
    refine ⟨j, ?_, foundOther, (mem_members.mp inMembers).2⟩
    rw [members] at sorted
    exact (List.pairwise_append.mp sorted).2.2 j member i (by simp)
  · rintro ⟨j, before, foundOther, same⟩
    have listed : j ∈ (ofParents parents).members group :=
      mem_members.mpr ⟨Nat.lt_trans before inside, same⟩
    rw [members] at listed sorted
    refine List.mem_filterMap.mpr ⟨j, ?_, foundOther⟩
    rcases List.mem_append.mp listed with listed | listed
    · exact listed
    · rcases List.mem_append.mp listed with listed | listed
      · exact nomatch (none j listed).symm.trans foundOther
      · have tail := (List.pairwise_append.mp (List.pairwise_append.mp sorted).2.1).2.1
        rcases List.mem_cons.mp listed with rfl | listed
        · exact absurd before (Nat.lt_irrefl _)
        · exact absurd before (Nat.lt_asymm ((List.pairwise_cons.mp tail).1 j listed))

/-- Every source is evaluated where the roots are. -/
theorem areWalks_bindingsOf {outer : Scope} (areParents : AreParents bindings parents)
    (contiguous : (Grouping.ofParents parents).isContiguous = true)
    (roots : ∀ source ∈ Binding.rootSources [] bindings, source.IsWalk library outer.Binds) :
    Binding.AreWalks library (fun name => outer.Binds name ∧
        name ∉ ((Grouping.ofParents parents).bindingsBefore bindings group).map (·.name))
      ((Grouping.ofParents parents).bindingsOf bindings group) := by
  refine Binding.areWalks_of_splits fun before binding after split => ?_
  obtain ⟨i, found, inGroup, mem_before⟩ := Grouping.exists_of_bindingsOf_split split
  have isRoot : (∀ owner, pathOwner? binding.source = some owner →
      owner ∉ (bindings.take i).map (·.name)) →
        binding.source.IsWalk library outer.Binds := by
    intro isRoot
    refine roots _ ?_
    have split : bindings = bindings.take i ++ binding :: bindings.drop (i + 1) := by
      obtain ⟨inside, same⟩ := List.getElem?_eq_some_iff.mp found
      rw [← same, List.getElem_cons_drop, List.take_append_drop]
    rw [split]
    exact Binding.mem_rootSources _ fun owner owned => ⟨List.not_mem_nil, isRoot owner owned⟩
  have parent := areParents.parent found
  have isSource := areParents.source found
  obtain ⟨name, source⟩ := binding
  cases isSource with
  | document content => exact isRoot nofun
  | @reference owner axis path content =>
      show owner ∈ _ ∨ _
      cases linked : (bindings.take i).findIdx? (·.name == owner) with
      | none =>
          have new : owner ∉ (bindings.take i).map (·.name) := by
            intro member
            obtain ⟨other, listed, same⟩ := List.mem_map.mp member
            exact absurd (List.findIdx?_eq_none_iff.mp linked other listed) (by simp [same])
          refine .inr ⟨isRoot fun other owned => Option.some.inj owned ▸ new, fun hidden => ?_⟩
          obtain ⟨other, listed, same⟩ := List.mem_map.mp hidden
          obtain ⟨j, foundOther, below⟩ := (Grouping.mem_bindingsBefore areParents).mp listed
          refine new (List.mem_map.mpr ⟨other, ?_, same⟩)
          refine List.mem_take_iff_getElem.mpr ?_
          obtain ⟨insideOther, rfl⟩ := List.getElem?_eq_some_iff.mp foundOther
          refine ⟨j, Nat.lt_min.mpr ⟨Nat.lt_of_not_le fun after => ?_, insideOther⟩, rfl⟩
          have := Grouping.group_le_group contiguous after
            (by rw [Grouping.length_groupOf, areParents.length]; exact insideOther)
          omega
      | some j =>
          obtain ⟨below, named, _⟩ := List.findIdx?_eq_some_iff_getElem.mp linked
          rw [List.length_take, Nat.lt_min] at below
          rw [List.getElem_take] at named
          have same : parents[i]? = some (some j) := parent.trans (congrArg some linked)
          refine .inl ?_
          rw [← eq_of_beq named]
          refine List.mem_map_of_mem ((mem_before _).mpr
            ⟨j, below.1, List.getElem?_eq_getElem below.2, ?_⟩)
          rw [← inGroup, Grouping.group_ofParents areParents.earlier same]

section Roots

variable {outer : Scope} {view : View Home} (areParents : AreParents bindings parents)
  (contiguous : (Grouping.ofParents parents).isContiguous = true)
  (roots : ∀ source ∈ Binding.rootSources [] bindings, source.IsWalk library outer.Binds)
include areParents contiguous roots

theorem areWalks_bindingsBefore (group : Nat) : Binding.AreWalks library outer.Binds
    ((Grouping.ofParents parents).bindingsBefore bindings group) := by
  induction group with
  | zero => exact trivial
  | succ group ih =>
      rw [Grouping.bindingsBefore_succ]
      refine Binding.areWalks_append _ ih ?_
      exact (areWalks_bindingsOf areParents contiguous roots).mono _
        fun name isBound => .inr isBound.1

/-- **Every row of the groups before is combined with every row of a group.** -/
theorem rows_bindingsBefore_succ (group : Nat) :
    Binding.rows view outer ((Grouping.ofParents parents).bindingsBefore bindings (group + 1)) [] =
      (Binding.rows view outer
        ((Grouping.ofParents parents).bindingsBefore bindings group) []).flatMap fun row =>
          (Binding.rows view outer
            ((Grouping.ofParents parents).bindingsOf bindings group) []).map (· ++ row) := by
  rw [Grouping.bindingsBefore_succ, Binding.rows_append]
  refine List.flatMap_congr fun row member => ?_
  have walks : Binding.AreWalks library (fun name => name ∈ ([] : Scope).map (·.1) ∨
      (outer.Binds name ∧ name ∉ row.map (·.1)))
        ((Grouping.ofParents parents).bindingsOf bindings group) := by
    refine (areWalks_bindingsOf areParents contiguous roots).mono _ fun name isBound => .inr ?_
    rw [Binding.mem_names_row member]
    exact isBound
  exact Binding.rows_apart _ walks

end Roots

/-- A name belongs to one group. -/
theorem Grouping.group_unique (areParents : AreParents bindings parents) {name : String}
    {other : Nat} (listed : name ∈ ((ofParents parents).bindingsOf bindings group).map (·.name))
    (also : name ∈ ((ofParents parents).bindingsOf bindings other).map (·.name)) :
    group = other := by
  obtain ⟨binding, member, rfl⟩ := List.mem_map.mp listed
  obtain ⟨twin, twinMember, same⟩ := List.mem_map.mp also
  obtain ⟨i, found, rfl⟩ := (mem_bindingsOf areParents).mp member
  obtain ⟨j, twinFound, rfl⟩ := (mem_bindingsOf areParents).mp twinMember
  obtain ⟨inside, rfl⟩ := List.getElem?_eq_some_iff.mp found
  obtain ⟨twinInside, rfl⟩ := List.getElem?_eq_some_iff.mp twinFound
  have one := List.inj_on_of_nodup_map areParents.nodup (List.getElem_mem twinInside)
    (List.getElem_mem inside) same
  have places : j = i := ((areParents.nodup.of_map).getElem_inj_iff).mp one
  rw [places]

/-- No name belongs to a group and to one before it. -/
theorem not_mem_names_bindingsOf (areParents : AreParents bindings parents) {name : String}
    (before : name ∈ ((Grouping.ofParents parents).bindingsBefore bindings group).map (·.name)) :
    name ∉ ((Grouping.ofParents parents).bindingsOf bindings group).map (·.name) := by
  intro inside
  rw [Grouping.bindingsBefore, List.map_flatMap, List.mem_flatMap] at before
  obtain ⟨other, below, listed⟩ := before
  exact absurd (Grouping.group_unique areParents listed inside)
    (Nat.ne_of_lt (List.mem_range.mp below))

end Groups

end JoinPlan

end TreeQuery
