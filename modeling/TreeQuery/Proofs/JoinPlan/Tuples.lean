import TreeQuery.Proofs.JoinPlan.Groups
import TreeQuery.Proofs.JoinPlan.Keys
import TreeQuery.Proofs.Query.Yields

/-!
# Tuples of groups

The query of a group yields one tuple for every row of the group that satisfies the group's
conditions, with a field for every variable and for every key (`groupQuery_yields`).  What a
field holds can be read off the row.

Fields have different names throughout, so the key of a tuple for a tag consists of the
value keys of the one field of that name (`tupleKey_tupleFragment`), and a pair of tags
matches exactly if the two sides that it stands for have a value in common.
-/

set_option autoImplicit false

namespace TreeQuery.JoinPlan

open Evaluation

variable {library : Library}

/-! ## Fields -/

/-- The fields of a group's tuples, each with the query that it holds: one for every
variable, and one for every key. -/
def fieldsOf (bindings : List Binding) (keys : List KeyField) : List (String × Query) :=
  bindings.map (fun binding => (binding.name, .reference binding.name)) ++
    keys.map fun key => (key.tag, key.query)

/-- A field with what its query reaches. -/
def fieldFragment (view : View Home) (scope : Scope) (field : String × Query) : Fragment :=
  .element field.1 [] ((field.2.walk view scope).map (·.fragment view))

/-- A tuple with its fields. -/
def tupleFragment (view : View Home) (scope : Scope) (fields : List (String × Query)) : Fragment :=
  .element tupleTag [] (fields.map (fieldFragment view scope))

/-- The tuple of two groups has the fields of both. -/
theorem joined_tupleFragment {view : View Home} {first second both : Scope}
    {fields others : List (String × Query)}
    (same : ∀ field ∈ fields, field.2.walk view both = field.2.walk view first)
    (also : ∀ field ∈ others, field.2.walk view both = field.2.walk view second) :
    (tupleFragment view first fields).joined (tupleFragment view second others) =
      tupleFragment view both (fields ++ others) := by
  have fieldsSame : fields.map (fieldFragment view both) = fields.map (fieldFragment view first) :=
    List.map_congr_left fun field member => by
      rw [fieldFragment, fieldFragment, same field member]
  have othersSame : others.map (fieldFragment view both) =
      others.map (fieldFragment view second) :=
    List.map_congr_left fun field member => by
      rw [fieldFragment, fieldFragment, also field member]
  rw [tupleFragment, tupleFragment, tupleFragment, List.map_append, fieldsSame, othersSame]
  rfl

/-- The only field of a name. -/
theorem filter_field {fields : List (String × Query)} (distinct : (fields.map (·.1)).Nodup)
    {name : String} {query : Query} (listed : (name, query) ∈ fields) :
    fields.filter (·.1 = name) = [(name, query)] := by
  induction fields with
  | nil => exact nomatch listed
  | cons first rest ih =>
      rw [List.map_cons, List.nodup_cons] at distinct
      rcases List.mem_cons.mp listed with rfl | later
      · have none : rest.filter (·.1 = name) = [] := by
          refine List.filter_eq_nil_iff.mpr fun other member same => distinct.1 ?_
          exact List.mem_map.mpr ⟨other, member, of_decide_eq_true same⟩
        rw [List.filter_cons_of_pos (by simp), none]
      · have different : first.1 ≠ name := by
          rintro rfl
          exact distinct.1 (List.mem_map.mpr ⟨_, later, rfl⟩)
        rw [List.filter_cons_of_neg (by simpa using different), ih distinct.2 later]

/-- The key of a tuple for the name of a field is read off that field. -/
theorem tupleKey_fields {fields : List (String × Query)} (distinct : (fields.map (·.1)).Nodup)
    {tag : String} {query : Query} (listed : (tag, query) ∈ fields)
    {fragment : String × Query → Fragment}
    (named : ∀ field name, (fragment field).isNamed name = decide (field.1 = name)) :
    (Fragment.element tupleTag [] (fields.map fragment)).tupleKey tag =
      ((fragment (tag, query)).attributes.map
          (fun (name, value) => Fragment.attribute name value) ++
        (fragment (tag, query)).children).map fun part => Fragment.compactAll [part] := by
  have same : (·.isNamed tag) ∘ fragment = fun field => decide (field.1 = tag) :=
    funext fun field => named field tag
  rw [Fragment.tupleKey, Fragment.children, List.filter_map, same, filter_field distinct listed,
    List.map_singleton, List.flatMap_singleton]

/-- **The key of a tuple for a tag are the value keys of the field of that name.** -/
theorem tupleKey_tupleFragment {view : View Home} {scope : Scope}
    {fields : List (String × Query)} (distinct : (fields.map (·.1)).Nodup) {tag : String}
    {query : Query} (listed : (tag, query) ∈ fields)
    (content : ∀ item ∈ query.walk view scope, item.IsContent view) :
    (tupleFragment view scope fields).tupleKey tag =
      (query.walk view scope).map (·.valueKey view) := by
  rw [tupleFragment, tupleKey_fields distinct listed fun _ _ => rfl, fieldFragment,
    Fragment.attributes, Fragment.children, List.map_nil, List.nil_append, List.map_map]
  refine List.map_congr_left fun item member => ?_
  rw [Node.valueKey, Node.content_of_kind (content item member).kind_ne]
  rfl

/-- Keys meet if the values do. -/
theorem keysMeet_valueKeys (view : View Home) (items others : List Item) :
    keysMeet (items.map (·.valueKey view)) (others.map (·.valueKey view)) =
      anyValueEq view items others := by
  rw [keysMeet, anyValueEq, List.any_map]
  rfl

/-! ## Queries of groups -/

/-- A group query is a `for` expression over the bindings of the group. -/
theorem groupQuery_ok {bindings : List Binding} {conditions : List Condition}
    {keys : List KeyField} {query : Query}
    (planned : groupQuery bindings conditions keys = .ok query) :
    ∃ body, Query.sequence ((fieldsOf bindings keys).map fun (name, query) =>
        .element name query) = some body ∧
      query = .flwr bindings [] (Condition.conjunction conditions) (.element tupleName body) := by
  have fields : bindings.map variableField ++
      (keys.map fun key => Query.element key.tag key.query) =
      (fieldsOf bindings keys).map fun (name, query) => Query.element name query := by
    rw [fieldsOf, List.map_append, List.map_map, List.map_map]
    rfl
  rw [groupQuery] at planned
  rw [fields] at planned
  split at planned
  · exact nomatch planned
  · rename_i body nested
    exact ⟨body, nested, (Except.ok.inj planned).symm⟩

/-- **The query of a group yields a tuple for every row that satisfies the group's
conditions.** -/
theorem groupQuery_yields {start : Arena} {outer : Scope} {bindings : List Binding}
    {conditions : List Condition} {keys : List KeyField} {query : Query}
    (documents : library.WellFormed) (formed : start.WellFormed)
    (existing : outer.Exist (library.view start))
    (walks : Binding.AreWalks library outer.Binds bindings)
    (tests : ∀ condition ∈ conditions,
      condition.IsTest library (· ∈ bindings.map (·.name)))
    (fields : ∀ field ∈ fieldsOf bindings keys,
      field.2.IsWalk library (· ∈ bindings.map (·.name)))
    {rows : List Scope}
    (passing : rows = (Binding.rows (library.view start) outer bindings []).filter fun row =>
      conditions.all (·.test (library.view start) (row ++ outer)))
    (content : ∀ row ∈ rows, ∀ field ∈ fieldsOf bindings keys,
      ∀ item ∈ field.2.walk (library.view start) (row ++ outer),
        item.IsContent (library.view start))
    (planned : groupQuery bindings conditions keys = .ok query) :
    query.Yields library start outer
      (rows.map fun row =>
        tupleFragment (library.view start) (row ++ outer) (fieldsOf bindings keys)) := by
  subst passing
  obtain ⟨body, nested, rfl⟩ := groupQuery_ok planned
  have binds : ∀ row ∈ Binding.rows (library.view start) outer bindings [],
      ∀ name ∈ bindings.map (·.name), Scope.Binds (row ++ outer) name := by
    intro row member name listed
    refine Scope.binds_of_mem ?_
    rw [List.map_append]
    exact List.mem_append_left _ ((Binding.mem_names_row member).mpr listed)
  have inside : ∀ row ∈ Binding.rows (library.view start) outer bindings [],
      Scope.Exist (library.view start) (row ++ outer) := fun row member =>
    Binding.exist_of_mem_rows documents (.refl (documents.view formed)) bindings
      (show Scope.Exist _ ([] ++ outer) from existing) member
  refine Query.Yields.flwr documents formed existing walks ?_ ?_
  · intro row member later develops
    obtain ⟨still, extend⟩ := develops.extends_wellFormed formed
    rw [Condition.holds_conjunction fun condition listed =>
      Condition.IsTest.mono (binds row member) condition (tests condition listed)]
    congr 1
    refine List.all_congr rfl fun condition => ?_
    exact condition.test_extend documents (documents.extends formed still extend)
      (inside row member)
  · intro row passes
    have member := List.mem_of_mem_filter passes
    have plain : ∀ fragment ∈ (fieldsOf bindings keys).map
        (fieldFragment (library.view start) (row ++ outer)), fragment.isAttribute = false :=
      List.forall_mem_map.mpr fun _ _ => rfl
    refine Query.Yields.element documents formed ?_ plain tupleName
    refine Query.Yields.sequence documents formed ?_ nested
    rw [List.forall₂_map_left_iff, List.forall₂_map_right_iff, List.forall₂_same]
    intro field listed
    have plain := content row passes field listed
    refine Query.Yields.element documents formed ?_ ?_ field.1
    · exact Query.Yields.walk documents formed (inside row member)
        (Query.IsWalk.mono (binds row member) field.2 (fields field listed))
        fun item reached => (plain item reached).kind_ne
    · exact List.forall_mem_map.mpr fun item reached =>
        (plain item reached).isAttribute (documents.view formed)

end TreeQuery.JoinPlan
