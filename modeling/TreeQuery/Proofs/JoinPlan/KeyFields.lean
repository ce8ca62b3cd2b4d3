import TreeQuery.Proofs.JoinPlan.Shape
import TreeQuery.Proofs.Node.Copying
import TreeQuery.Proofs.Processor

/-!
# What key fields keep

A field is an element around what its query reaches, and the key of a tuple for its tag is read
off that element.  Of several attributes of one name the element has the last one only, and a
document is copied by its children.  So the key consists of the value keys of what the query
reaches exactly if nothing is lost in either way (`Node.KeepKeys`, `Node.mem_heldKeys_iff`).

This decides whether the key is faithful, for every field of a rewritten expression and every
tuple of its group (`Flwr.toJoins_keys_faithful_iff`).  Nothing is lost if the query ends at
elements and texts.  The check that is to keep attributes out of key fields does not see to it in
all other cases: it looks for an attribute as the last step, and the last step can stand still at
attributes (`Flwr.toJoins_keys_loseAttribute`).
-/

set_option autoImplicit false

namespace TreeQuery

open Evaluation JoinPlan Fragment

/-! ## Keys of elements around items -/

namespace Node

variable {Home : Type} (view : View Home) (items : List (Node Home))

/-- The attributes of an element around items. -/
def attributesAround : List (String × String) :=
  (items.filterMap (·.given? view)).foldl give []

/-- An element around items. -/
def around (name : String) : Fragment :=
  .element name (attributesAround view items) (items.flatMap (Node.added view))

/-- The value keys that an element around items holds. -/
def heldKeys : List String :=
  ((attributesAround view items).map (fun (name, value) => Fragment.attribute name value) ++
    items.flatMap (Node.added view)).map fun part => compactAll [part]

/-- An element around items keeps their value keys: attributes of one name have one value, and a
document has the value key of something that is added to the element, and itself adds nothing but
what has the value key of an item. -/
structure KeepKeys : Prop where
  single : ∀ item ∈ items, ∀ other ∈ items,
    (item.given? view).map (·.1) = (other.given? view).map (·.1) →
      item.given? view = other.given? view
  whole : ∀ document ∈ items, document.kind view = .document →
    (∃ item ∈ items, ∃ fragment ∈ item.added view, fragment.compact = document.valueKey view) ∧
      ∀ fragment ∈ document.added view, ∃ item ∈ items, item.valueKey view = fragment.compact

instance : Decidable (KeepKeys view items) :=
  decidable_of_iff (_ ∧ _) ⟨fun both => ⟨both.1, both.2⟩, fun keep => ⟨keep.single, keep.whole⟩⟩

variable {view items} {item : Node Home}

/-! ### Value keys of items -/

/-- An attribute is written as an attribute. -/
theorem valueKey_of_given? (formed : view.WellFormed) {name value : String}
    (given : item.given? view = some (name, value)) :
    item.valueKey view = (Fragment.attribute name value).compact := by
  have payload := given?_eq_some.mp given
  have below : item.kind view ≠ .document := by simp [kind, payload, Payload.kind]
  rw [valueKey, content_of_kind below, compactAll_singleton, fragment_of_attribute formed payload]

/-- What is no attribute is written as what it adds. -/
theorem valueKey_of_ne_attribute (notAttribute : item.kind view ≠ .attribute) :
    item.valueKey view = compactAll (item.added view) := by
  rw [valueKey, content_eq_added notAttribute]

/-- What is no attribute is not written like one. -/
theorem valueKey_ne_attribute (formed : view.WellFormed)
    (notAttribute : item.kind view ≠ .attribute) (name value : String) :
    (Fragment.attribute name value).compact ≠ item.valueKey view := by
  rw [valueKey_of_ne_attribute notAttribute]
  apply compact_attribute_ne
  intro fragment member
  exact isAttribute_of_mem_added formed member

/-! ### Held keys -/

theorem mem_heldKeys {key : String} : key ∈ heldKeys view items ↔
    (∃ name value, (name, value) ∈ attributesAround view items ∧
      (Fragment.attribute name value).compact = key) ∨
    ∃ item ∈ items, ∃ fragment ∈ item.added view, fragment.compact = key := by
  simp only [heldKeys, compactAll_singleton, List.map_append, List.map_map, List.mem_append,
    List.mem_map, List.mem_flatMap, Function.comp, Prod.exists]
  constructor
  · rintro (given | ⟨fragment, ⟨item, member, added⟩, same⟩)
    · exact .inl given
    · exact .inr ⟨item, member, fragment, added, same⟩
  · rintro (given | ⟨item, member, fragment, added, same⟩)
    · exact .inl given
    · exact .inr ⟨fragment, ⟨item, member, added⟩, same⟩

/-- The attributes around items come from items. -/
theorem exists_of_mem_attributesAround {name value : String}
    (kept : (name, value) ∈ attributesAround view items) :
    ∃ item ∈ items, item.given? view = some (name, value) :=
  List.mem_filterMap.mp ((mem_foldl_give _ kept).resolve_right List.not_mem_nil)

/-- Some attribute is kept of every name that is given. -/
theorem exists_mem_attributesAround (member : item ∈ items) {name value : String}
    (given : item.given? view = some (name, value)) :
    ∃ kept, (name, kept) ∈ attributesAround view items := by
  have named : name ∈ (items.filterMap (·.given? view)).map (·.1) :=
    List.mem_map.mpr ⟨(name, value), List.mem_filterMap.mpr ⟨item, member, given⟩, rfl⟩
  obtain ⟨⟨_, kept⟩, listed, rfl⟩ :=
    List.mem_map.mp ((mem_names_foldl_give _).mpr (.inl named))
  exact ⟨kept, listed⟩

/-- No two attributes of one name are kept. -/
theorem eq_of_mem_attributesAround {pair other : String × String}
    (kept : pair ∈ attributesAround view items) (also : other ∈ attributesAround view items)
    (sameName : pair.1 = other.1) : pair = other := by
  have distinct : ((attributesAround view items).map (·.1)).Nodup :=
    nodup_foldl_give _ List.nodup_nil
  exact List.inj_on_of_nodup_map distinct kept also sameName

/-- The value key of an attribute is held only if the attribute is kept. -/
theorem mem_attributesAround_of_mem_heldKeys (formed : view.WellFormed) {name value : String}
    (held : (Fragment.attribute name value).compact ∈ heldKeys view items) :
    (name, value) ∈ attributesAround view items := by
  rcases mem_heldKeys.mp held with
    ⟨other, otherValue, kept, same⟩ | ⟨item, _, fragment, added, same⟩
  · obtain ⟨rfl, rfl⟩ := compact_attribute_inj same
    exact kept
  · have plain : ∀ part ∈ [fragment], part.isAttribute = false :=
      List.forall_mem_singleton.mpr (isAttribute_of_mem_added formed added)
    rw [← compactAll_singleton fragment] at same
    exact absurd same.symm (compact_attribute_ne name value plain)

/-- What an element holds has the value key of an item if the element keeps the value keys. -/
theorem KeepKeys.exists_of_mem_heldKeys (formed : view.WellFormed) (keep : KeepKeys view items)
    {key : String} (held : key ∈ heldKeys view items) :
    ∃ item ∈ items, item.valueKey view = key := by
  rcases mem_heldKeys.mp held with
    ⟨name, value, kept, rfl⟩ | ⟨item, member, fragment, added, rfl⟩
  · obtain ⟨item, member, given⟩ := exists_of_mem_attributesAround kept
    exact ⟨item, member, valueKey_of_given? formed given⟩
  · by_cases isDocument : item.kind view = .document
    · exact (keep.whole item member isDocument).2 fragment added
    · have notAttribute : item.kind view ≠ .attribute := by
        intro isAttribute
        rw [added_eq_nil isAttribute] at added
        cases added
      refine ⟨item, member, ?_⟩
      rw [added_of_kind notAttribute isDocument] at added
      rw [valueKey_of_ne_attribute notAttribute, added_of_kind notAttribute isDocument,
        List.mem_singleton.mp added, compactAll_singleton]

/-- An element that keeps the value keys of items holds the value key of every item. -/
theorem KeepKeys.valueKey_mem (formed : view.WellFormed) (keep : KeepKeys view items)
    (member : item ∈ items) : item.valueKey view ∈ heldKeys view items := by
  apply mem_heldKeys.mpr
  by_cases isAttribute : item.kind view = .attribute
  · obtain ⟨name, value, given⟩ := exists_given? isAttribute
    obtain ⟨kept, listed⟩ := exists_mem_attributesAround member given
    obtain ⟨other, alsoMember, alsoGiven⟩ := exists_of_mem_attributesAround listed
    have same := keep.single item member other alsoMember (by rw [given, alsoGiven]; rfl)
    rw [given, alsoGiven, Option.some.injEq] at same
    exact .inl ⟨name, value, same ▸ listed, (valueKey_of_given? formed given).symm⟩
  · by_cases isDocument : item.kind view = .document
    · exact .inr (keep.whole item member isDocument).1
    · refine .inr ⟨item, member, item.fragment view, ?_, ?_⟩
      · rw [added_of_kind isAttribute isDocument]
        exact List.mem_singleton_self _
      · rw [valueKey_of_ne_attribute isAttribute, added_of_kind isAttribute isDocument,
          compactAll_singleton]

/-- An element that holds the value keys of items and no others keeps them. -/
theorem keepKeys_of_mem_heldKeys_iff (formed : view.WellFormed)
    (faithful : ∀ key, key ∈ heldKeys view items ↔ ∃ item ∈ items, item.valueKey view = key) :
    KeepKeys view items := by
  constructor
  · intro item member other alsoMember sameName
    have kept : ∀ {item : Node Home} {pair : String × String}, item ∈ items →
        item.given? view = some pair → pair ∈ attributesAround view items := by
      intro item pair member given
      apply mem_attributesAround_of_mem_heldKeys formed
      exact (faithful _).mpr ⟨item, member, valueKey_of_given? formed given⟩
    cases given : item.given? view with
    | none =>
        rw [given, Option.map_none, eq_comm, Option.map_eq_none_iff] at sameName
        exact sameName.symm
    | some pair =>
        rw [given, Option.map_some, eq_comm, Option.map_eq_some_iff] at sameName
        obtain ⟨_, alsoGiven, sameName⟩ := sameName
        rw [alsoGiven, eq_of_mem_attributesAround (kept alsoMember alsoGiven)
          (kept member given) sameName]
  · intro document member isDocument
    have notAttribute : document.kind view ≠ .attribute := by simp [isDocument]
    constructor
    · have held := (faithful _).mpr ⟨document, member, rfl⟩
      rcases mem_heldKeys.mp held with ⟨name, value, _, same⟩ | added
      · exact absurd same (valueKey_ne_attribute formed notAttribute name value)
      · exact added
    · intro fragment added
      exact (faithful _).mp (mem_heldKeys.mpr (.inr ⟨document, member, fragment, added, rfl⟩))

/-- **The keys that an element holds are the value keys of the items around which it is created
exactly if the element keeps them.** -/
theorem mem_heldKeys_iff (formed : view.WellFormed) :
    (∀ key, key ∈ heldKeys view items ↔ ∃ item ∈ items, item.valueKey view = key) ↔
      KeepKeys view items := by
  refine ⟨keepKeys_of_mem_heldKeys_iff formed, fun keep key => ?_⟩
  constructor
  · exact keep.exists_of_mem_heldKeys formed
  · rintro ⟨item, member, rfl⟩
    exact keep.valueKey_mem formed member

/-- Elements and texts keep their value keys. -/
theorem keepKeys_of_isContent (content : ∀ item ∈ items, item.IsContent view) :
    KeepKeys view items := by
  constructor
  · have none : ∀ item ∈ items, item.given? view = none := by
      intro item member
      rw [Option.eq_none_iff_forall_not_mem]
      rintro ⟨name, value⟩ given
      have kind := content item member
      rw [IsContent, Node.kind, given?_eq_some.mp given] at kind
      rcases kind with kind | kind <;> cases kind
    intro item member other alsoMember _
    rw [none item member, none other alsoMember]
  · intro document member isDocument
    exact absurd isDocument (content document member).kind_ne

end Node

/-! ## Fields of tuples -/

section Tuples

variable {library : Library} {start : Arena} {scope : Scope}
variable (documents : library.WellFormed) (formed : start.WellFormed)
include documents formed

/-- An element around what a walk reaches says what the items give and add. -/
theorem Query.Yields.around {query : Query} (existing : scope.Exist (library.view start))
    (walks : query.IsWalk library scope.Binds) (name : String) :
    (Query.element name query).Yields library start scope
      [Node.around (library.view start) (query.walk (library.view start) scope) name] := by
  intro arena develops
  obtain ⟨still, extend⟩ := develops.extends_wellFormed formed
  have viewExtend := documents.extends formed still extend
  obtain ⟨same, reached⟩ := query.walk_extend documents viewExtend existing
  have run : query.evaluate library scope arena =
      .ok (query.walk (library.view start) scope) arena := same ▸ query.evaluate_walk walks
  obtain ⟨item, later, rerun, _, reads⟩ := constructElement_new documents still name
    (query.walk (library.view start) scope)
  have content : (query.walk (library.view start) scope).flatMap
        (·.content (library.view arena)) =
      (query.walk (library.view start) scope).flatMap (·.content (library.view start)) :=
    List.flatMap_congr fun item member => Node.content_extend (reached item member) viewExtend
  rw [content, Node.attributesIn_flatMap_content (documents.view formed),
    Node.childrenIn_flatMap_content (documents.view formed)] at reads
  refine ⟨[item], later, ?_, .cons reads .nil⟩
  rw [Query.evaluate, bind_ok run, bind_ok rerun, pure_apply]

/-- An element with a field around what every walk reaches: its key for the tag of a field is
what the field holds. -/
theorem Query.tupleKey_fields {fields : List (String × Query)} {body : Query}
    (existing : scope.Exist (library.view start))
    (walks : ∀ field ∈ fields, field.2.IsWalk library scope.Binds)
    (distinct : (fields.map (·.1)).Nodup)
    (made : Query.sequence (fields.map fun (tag, held) => .element tag held) = some body) :
    ∃ element later,
      (Query.element tupleName body).evaluate library scope start = .ok [element] later ∧
      ∀ tag held, (tag, held) ∈ fields → element.tupleKey (library.view later) tag =
        Node.heldKeys (library.view start) (held.walk (library.view start) scope) := by
  let fragment := fun field : String × Query =>
    Node.around (library.view start) (field.2.walk (library.view start) scope) field.1
  have yields : body.Yields library start scope (fields.map fragment) := by
    apply Query.Yields.sequence documents formed _ made
    rw [List.forall₂_map_left_iff, List.forall₂_map_right_iff, List.forall₂_same]
    intro field listed
    exact Query.Yields.around documents formed existing (walks field listed) field.1
  have plain : ∀ part ∈ fields.map fragment, part.isAttribute = false :=
    List.forall_mem_map.mpr fun _ _ => rfl
  obtain ⟨items, later, run, reads⟩ :=
    yields.element documents formed plain tupleName start .refl
  obtain ⟨element, _, read, none, rfl⟩ := List.forall₂_cons_left_iff.mp reads
  obtain rfl := List.forall₂_nil_left_iff.mp none
  have develops := ((Query.element tupleName body).evaluate_constructs library scope).ok run
  obtain ⟨still, _⟩ := develops.extends_wellFormed formed
  refine ⟨element, later, run, ?_⟩
  intro tag held listed
  rw [Node.tupleKey_eq (documents.view still), read.fragment]
  exact JoinPlan.tupleKey_fields distinct listed fun _ _ => rfl

end Tuples

namespace JoinPlan.Plan.Rewrites

variable {library : Library} {plan : Plan} {flwr : Flwr} {query : Query}
variable (rewrites : plan.Rewrites flwr query)
include rewrites

/-- In every tuple of a group, the queries of the fields are walks off variables that stand for an
element or a text. -/
theorem walks_of_isTuple {group : Nat} {outer scope : Scope} {arena : Arena}
    (documents : library.WellFormed) (formed : arena.WellFormed)
    (existing : outer.Exist (library.view arena))
    (isTuple : Binding.IsTuple library (plan.bindingsOf group) outer arena scope) :
    scope.Exist (library.view arena) ∧ ∀ field ∈ plan.groupFields group,
      field.2.IsWalk library scope.Binds ∧
        (yieldsContent field.2 = true → ∀ item ∈ field.2.walk (library.view arena) scope,
          item.IsContent (library.view arena)) := by
  have areParents := rewrites.areParents
  have viewFormed := documents.view formed
  constructor
  · obtain ⟨row, member, rfl⟩ := Binding.mem_rows_of_isTuple _
      (fun _ listed => isSource_of_mem_bindingsOf areParents listed)
      (show Binding.IsTuple library _ ([] ++ outer) arena _ from isTuple)
    exact Binding.exist_of_mem_rows documents (.refl viewFormed) _
      (show Scope.Exist _ ([] ++ outer) from existing) member
  · intro field listed
    obtain ⟨name, bound, owned⟩ :=
      owned_of_mem_groupFields areParents rewrites.sound_bindings rewrites.describes listed
    obtain ⟨node, found, content⟩ :=
      lookup_of_isTuple areParents documents formed isTuple bound
    refine ⟨isWalk_of_pathOwner? ⟨_, found⟩ field.2 owned, ?_⟩
    intro yields
    exact isContent_of_yieldsContent viewFormed found content field.2 yields owned

end JoinPlan.Plan.Rewrites

/-- **Keys are faithful exactly where fields keep them.**  A rewritten expression joins queries
that return one element for every tuple of their group, with a field for every key.  In every such
tuple, the query that a field holds reaches items and the element can be constructed, and the key
of the element for the tag of the field consists of the value keys of those items if and only if
the field keeps them: no attribute is replaced by one of its name with another value, and no value
key is lost or gained where the children of a document stand for it.  Fields whose queries end at
elements and texts keep them. -/
theorem Flwr.toJoins_keys_faithful_iff (library : Library) (documents : library.Reachable)
    (flwr : Flwr) (query : Query) (rewritten : flwr.toJoins = .ok query) :
    ∃ tuple source result, query = .flwr [⟨tuple, source⟩] [] none result ∧
      ∀ group ∈ source.chained, ∃ bindings condition body,
        group = .flwr bindings [] condition (.element tupleName body) ∧
        ∀ field ∈ body.members, ∃ tag held, field = .element tag held ∧
          ∀ (outer scope : Scope) (arena : Arena), arena.Reachable →
            outer.Exist (library.view arena) →
            Binding.IsTuple library bindings outer arena scope →
            ∃ items element later,
              held.evaluate library scope arena = .ok items arena ∧
              (Query.element tupleName body).evaluate library scope arena =
                .ok [element] later ∧
              ((∀ key, key ∈ element.tupleKey (library.view later) tag ↔
                  ∃ item ∈ items, item.valueKey (library.view arena) = key) ↔
                Node.KeepKeys (library.view arena) items) ∧
              (yieldsContent held = true → Node.KeepKeys (library.view arena) items) := by
  obtain ⟨plan, rewrites⟩ := toJoins_ok rewritten
  obtain ⟨tuple, source, result, same, _, planned, _⟩ := rewrites.exists_chained
  refine ⟨tuple, source, result, same, ?_⟩
  intro tuples joined
  obtain ⟨group, _, planned⟩ := (Gathered.of_forall₂ planned).right tuples joined
  obtain ⟨body, made, rfl⟩ := groupQuery_ok planned
  refine ⟨plan.bindingsOf group, _, body, rfl, ?_⟩
  intro field member
  rw [Query.members_fields made] at member
  obtain ⟨⟨tag, held⟩, listed, rfl⟩ := List.mem_map.mp member
  refine ⟨tag, held, rfl, ?_⟩
  intro outer scope arena reachable existing isTuple
  have formed := reachable.wellFormed
  obtain ⟨inside, fields⟩ :=
    rewrites.walks_of_isTuple documents.wellFormed formed existing isTuple
  obtain ⟨walk, content⟩ := fields (tag, held) listed
  obtain ⟨element, later, run, keys⟩ := Query.tupleKey_fields documents.wellFormed formed inside
    (fun field listed => (fields field listed).1)
    (Plan.nodup_groupFields rewrites.areParents rewrites.sound_bindings group) made
  refine ⟨_, element, later, held.evaluate_walk walk, run, ?_, ?_⟩
  · rw [keys tag held listed]
    exact Node.mem_heldKeys_iff (documents.wellFormed.view formed)
  · intro yields
    exact Node.keepKeys_of_isContent (content yields)

/-- Two attributes of one name that have one value: the field keeps one of them, and the key is
faithful. -/
theorem Flwr.toJoins_keys_faithful_iff_oneValue :
    let library := (Collection.empty.shelf
      [("f", .text "<r><a><k id=\"1\"/><k id=\"1\"/></a></r>")]).library
    let held : Query := .step (.reference "a") .child
      (.step (.step (.tag "k") .child (.attribute "id")) .child .current)
    let flwr : Flwr :=
      ⟨[⟨"a", .document ⟨"f", .child, .step (.tag "r") .child (.tag "a")⟩⟩,
        ⟨"b", .document ⟨"f", .child, .step (.tag "r") .child (.tag "a")⟩⟩], [],
        some (.valueEq held (.reference "b")), .reference "a"⟩
    let scope : Scope := [("a", [⟨.document "f", 2⟩])]
    ∃ source result body items element later,
      flwr.toJoins = .ok (.flwr [⟨tupleName, source⟩] [] none result) ∧
      .flwr (flwr.bindings.take 1) [] none (.element tupleName body) ∈ source.chained ∧
      .element keyName held ∈ body.members ∧
      Binding.IsTuple library (flwr.bindings.take 1) [] .empty scope ∧
      held.evaluate library scope .empty = .ok items .empty ∧
      (Query.element tupleName body).evaluate library scope .empty = .ok [element] later ∧
      ∀ key, key ∈ element.tupleKey (library.view later) keyName ↔
        ∃ item ∈ items, item.valueKey (library.view .empty) = key := by
  intro library held flwr scope
  let body : Query := .pair (.element "a" (.reference "a")) (.element keyName held)
  let source : Query := .join (.flwr (flwr.bindings.take 1) [] none (.element tupleName body))
    (.flwr (flwr.bindings.drop 1) [] none (.element tupleName (.element "b" (.reference "b"))))
    [keyName] ["b"]
  have rewritten : flwr.toJoins = .ok (.flwr [⟨tupleName, source⟩] [] none
      (.step (.reference tupleName) .child (.step (.tag "a") .child .wildcard))) := by
    decide +kernel
  have field : Query.element keyName held ∈ body.members := by decide +kernel
  have reached : (⟨.document "f", 2⟩ : Item) ∈
      (flwr.bindings.head (by decide)).source.walk (library.view .empty) [] := by decide +kernel
  have keep : Node.KeepKeys (library.view .empty) (held.walk (library.view .empty) scope) := by
    decide +kernel
  obtain ⟨arena, found⟩ : ∃ arena, library "f" = .ok arena := exists_of_isOk (by decide +kernel)
  have reachable : library.Reachable := Collection.Reachable.empty.shelf _
  clear_value library
  have isTuple : Binding.IsTuple library (flwr.bindings.take 1) [] .empty scope :=
    .cons (Query.evaluate_walk _ ⟨arena, found⟩) reached .nil
  have walk : held.evaluate library scope .empty = .ok _ .empty :=
    held.evaluate_walk (show held.IsWalk library scope.Binds from ⟨_, rfl⟩)
  obtain ⟨_, _, _, same, joined⟩ := Flwr.toJoins_keys_faithful_iff library
    reachable flwr _ rewritten
  cases same
  obtain ⟨_, _, _, same, fields⟩ := joined _ List.mem_cons_self
  cases same
  obtain ⟨_, _, same, keys⟩ := fields _ field
  cases same
  obtain ⟨items, element, later, run, constructed, faithful, _⟩ :=
    keys [] scope .empty .empty .nil isTuple
  obtain ⟨rfl, _⟩ := EStateM.Result.ok.inj (run.symm.trans walk)
  exact ⟨source, _, body, _, element, later, rewritten, List.mem_cons_self, field, isTuple, run,
    constructed, faithful.mpr keep⟩

/-- The last step of a key stands still at two attributes of one name and two values.  It is not
taken to reach attributes, but the field keeps the second attribute only, and the key lacks a value
key. -/
theorem Flwr.toJoins_keys_loseAttribute :
    let library := (Collection.empty.shelf
      [("f", .text "<r><a><k id=\"1\"/><k id=\"2\"/></a></r>"),
        ("g", .text "<s><b id=\"1\"/></s>")]).library
    let held : Query := .step (.reference "a") .child
      (.step (.step (.tag "k") .child (.attribute "id")) .child .current)
    let other : Query := .step (.reference "b") .child (.step (.attribute "id") .child .current)
    let flwr : Flwr :=
      ⟨[⟨"a", .document ⟨"f", .child, .step (.tag "r") .child (.tag "a")⟩⟩,
        ⟨"b", .document ⟨"g", .child, .step (.tag "s") .child (.tag "b")⟩⟩], [],
        some (.valueEq held other), .reference "a"⟩
    let scope : Scope := [("a", [⟨.document "f", 2⟩])]
    yieldsAttributes held = false ∧ ∃ source result body items element later,
      flwr.toJoins = .ok (.flwr [⟨tupleName, source⟩] [] none result) ∧
      .flwr (flwr.bindings.take 1) [] none (.element tupleName body) ∈ source.chained ∧
      .element keyName held ∈ body.members ∧
      Binding.IsTuple library (flwr.bindings.take 1) [] .empty scope ∧
      held.evaluate library scope .empty = .ok items .empty ∧
      (Query.element tupleName body).evaluate library scope .empty = .ok [element] later ∧
      ¬∀ key, key ∈ element.tupleKey (library.view later) keyName ↔
        ∃ item ∈ items, item.valueKey (library.view .empty) = key := by
  intro library held other flwr scope
  let fields : List (String × Query) := [("a", .reference "a"), (keyName, held)]
  let body : Query := .pair (.element "a" (.reference "a")) (.element keyName held)
  let source : Query := .join (.flwr (flwr.bindings.take 1) [] none (.element tupleName body))
    (.flwr (flwr.bindings.drop 1) [] none (.element tupleName
      (.pair (.element "b" (.reference "b")) (.element "key_2" other)))) [keyName] ["key_2"]
  have rewritten : flwr.toJoins = .ok (.flwr [⟨tupleName, source⟩] [] none
      (.step (.reference tupleName) .child (.step (.tag "a") .child .wildcard))) := by
    decide +kernel
  have field : Query.element keyName held ∈ body.members := by decide +kernel
  have reached : (⟨.document "f", 2⟩ : Item) ∈
      (flwr.bindings.head (by decide)).source.walk (library.view .empty) [] := by decide +kernel
  have existing : ∀ item ∈ [(⟨.document "f", 2⟩ : Item)], item.Exists (library.view .empty) := by
    decide +kernel
  have lost : ¬Node.KeepKeys (library.view .empty) (held.walk (library.view .empty) scope) := by
    decide +kernel
  obtain ⟨arena, found⟩ : ∃ arena, library "f" = .ok arena := exists_of_isOk (by decide +kernel)
  have documents : library.WellFormed := (Collection.Reachable.empty.shelf _).wellFormed
  clear_value library
  have isTuple : Binding.IsTuple library (flwr.bindings.take 1) [] .empty scope :=
    .cons (Query.evaluate_walk _ ⟨arena, found⟩) reached .nil
  have walks : ∀ field ∈ fields, field.2.IsWalk library scope.Binds := by
    refine List.forall_mem_cons.mpr ⟨⟨_, rfl⟩, List.forall_mem_singleton.mpr ?_⟩
    exact (show held.IsWalk library scope.Binds from ⟨_, rfl⟩)
  obtain ⟨element, later, run, keys⟩ := Query.tupleKey_fields documents .empty
    (Scope.Exist.nil.cons "a" existing) walks (by decide) rfl
  refine ⟨rfl, source, _, body, _, element, later, rewritten, List.mem_cons_self, field, isTuple,
    held.evaluate_walk (walks _ (List.mem_cons_of_mem _ List.mem_cons_self)), run, ?_⟩
  rw [keys keyName held (List.mem_cons_of_mem _ List.mem_cons_self),
    Node.mem_heldKeys_iff (documents.view .empty)]
  exact lost

end TreeQuery
