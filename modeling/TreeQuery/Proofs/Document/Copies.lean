import TreeQuery.Proofs.Document.Reading

/-!
# Copies

Copying a node means building its fragment anew.  What is added is read back settled
(`graftAll_receives_settle`): no attribute stands among the children of an element, and no
two attributes of an element share a name.  The fragments of nodes are settled already, and
such content is read back unchanged (`graftAll_receives`), so a copy has the fragment of
its original, and the fragment of a new element depends on its name and its content only
(`fragment_createElement`).

Everything else keeps its fragment while content is added (`Grows.fragment_eq`,
`Extends.fragment_eq`).
-/

set_option autoImplicit false

namespace TreeQuery

/-! ## Content -/

namespace Fragment

/-- Whether a fragment is an attribute. -/
def isAttribute : Fragment → Bool
  | .attribute _ _ => true
  | _ => false

/-- The attributes among fragments. -/
def attributesIn (content : List Fragment) : List (String × String) :=
  content.filterMap fun
    | .attribute name value => some (name, value)
    | _ => none

/-- The fragments that are no attributes. -/
def childrenIn (content : List Fragment) : List Fragment :=
  content.filter (!·.isAttribute)

/-- A fragment as it is read from an arena. -/
inductive Settled : Fragment → Prop where
  | text (value : String) : Settled (.text value)
  | attribute (name value : String) : Settled (.attribute name value)
  | element {name : String} {attributes : List (String × String)} {children : List Fragment}
      (names : (attributes.map (·.1)).Nodup)
      (plain : ∀ child ∈ children, child.isAttribute = false)
      (inside : ∀ child ∈ children, child.Settled) :
      Settled (.element name attributes children)

/-- The attributes of an element after one is given: a value given again replaces the
earlier one in place. -/
def give (given : List (String × String)) (pair : String × String) : List (String × String) :=
  match given with
  | [] => [pair]
  | first :: rest => if first.1 = pair.1 then pair :: rest else first :: give rest pair

theorem give_of_not_mem {given : List (String × String)} {pair : String × String}
    (new : ∀ other ∈ given, other.1 ≠ pair.1) : give given pair = given ++ [pair] := by
  induction given with
  | nil => rfl
  | cons first rest ih =>
      rw [give, if_neg (new first List.mem_cons_self),
        ih fun other member => new other (List.mem_cons_of_mem _ member), List.cons_append]

theorem give_append {before after : List (String × String)} {old pair : String × String}
    (new : ∀ other ∈ before, other.1 ≠ pair.1) (same : old.1 = pair.1) :
    give (before ++ old :: after) pair = before ++ pair :: after := by
  induction before with
  | nil => rw [List.nil_append, give, if_pos same, List.nil_append]
  | cons first rest ih =>
      rw [List.cons_append, give, if_neg (new first List.mem_cons_self),
        ih fun other member => new other (List.mem_cons_of_mem _ member), List.cons_append]

/-- Attributes without a repeated name are given as they stand. -/
theorem foldl_give {attributes : List (String × String)} :
    ∀ {given : List (String × String)}, ((given ++ attributes).map (·.1)).Nodup →
      attributes.foldl give given = given ++ attributes := by
  induction attributes with
  | nil => exact fun _ => (List.append_nil _).symm
  | cons pair rest ih =>
      intro given names
      have new : ∀ other ∈ given, other.1 ≠ pair.1 := by
        intro other member same
        rw [List.map_append, List.map_cons, List.nodup_append] at names
        exact names.2.2 other.1 (List.mem_map_of_mem member) pair.1 List.mem_cons_self same
      have asOne : given ++ pair :: rest = given ++ [pair] ++ rest := by simp
      rw [List.foldl_cons, give_of_not_mem new, ih (asOne ▸ names), ← asOne]

@[simp] theorem attributesIn_append (first second : List Fragment) :
    attributesIn (first ++ second) = attributesIn first ++ attributesIn second :=
  List.filterMap_append

@[simp] theorem childrenIn_append (first second : List Fragment) :
    childrenIn (first ++ second) = childrenIn first ++ childrenIn second :=
  List.filter_append ..

/-- Fragments that are no attributes are children only. -/
theorem attributesIn_eq_nil {content : List Fragment}
    (plain : ∀ fragment ∈ content, fragment.isAttribute = false) : attributesIn content = [] := by
  rw [attributesIn, List.filterMap_eq_nil_iff]
  intro fragment member
  match fragment, plain fragment member with
  | .element _ _ _, _ => rfl
  | .text _, _ => rfl

theorem childrenIn_eq_self {content : List Fragment}
    (plain : ∀ fragment ∈ content, fragment.isAttribute = false) :
    childrenIn content = content := by
  rw [childrenIn, List.filter_eq_self]
  intro fragment member
  rw [plain fragment member]
  rfl

/-! ## Settling -/

mutual
/-- A fragment as it is read back from where it is added: attributes among the children of an
element are given to the element, and of two attributes with a name the later one stays. -/
def settle : Fragment → Fragment
  | .element name attributes children =>
      .element name ((attributesIn (settleAll children)).foldl give (attributes.foldl give []))
        (childrenIn (settleAll children))
  | .attribute name value => .attribute name value
  | .text value => .text value

def settleAll : List Fragment → List Fragment
  | [] => []
  | fragment :: rest => fragment.settle :: settleAll rest
end

theorem isAttribute_settle (fragment : Fragment) :
    fragment.settle.isAttribute = fragment.isAttribute := by
  cases fragment <;> simp [settle, isAttribute]

mutual
/-- Nothing changes in a fragment that is settled. -/
theorem Settled.settle_eq_self : (fragment : Fragment) → fragment.Settled →
    fragment.settle = fragment
  | .element name attributes children, settled => by
      obtain _ | _ | ⟨names, plain, inside⟩ := settled
      rw [settle, Settled.settleAll_eq_self children inside, attributesIn_eq_nil plain,
        childrenIn_eq_self plain, List.foldl_nil, foldl_give (by simpa using names),
        List.nil_append]
  | .attribute name value, _ => by rw [settle]
  | .text value, _ => by rw [settle]

theorem Settled.settleAll_eq_self : (content : List Fragment) →
    (∀ fragment ∈ content, fragment.Settled) → settleAll content = content
  | [], _ => by rw [settleAll]
  | fragment :: rest, settled => by
      obtain ⟨first, others⟩ := List.forall_mem_cons.mp settled
      rw [settleAll, Settled.settle_eq_self fragment first,
        Settled.settleAll_eq_self rest others]
end

end Fragment

namespace Arena

open Fragment

variable {arena before middle after : Arena} {slot : Nat}

/-! ## Fragments of nodes are settled -/

theorem WellFormed.isAttribute_fragment (wellFormed : arena.WellFormed) (slot : Nat) :
    (arena.fragment slot).isAttribute = true ↔
      (arena.record slot).payload.kind = .attribute := by
  rw [wellFormed.fragment_eq slot, topFragment]
  cases (arena.record slot).payload <;> simp [isAttribute, Payload.kind]

theorem WellFormed.isAttribute_child (wellFormed : arena.WellFormed) {child : Nat}
    (listed : child ∈ arena.children slot) : (arena.fragment child).isAttribute = false := by
  rw [Bool.eq_false_iff, Ne, wellFormed.isAttribute_fragment]
  rcases wellFormed.child_kind listed with kind | kind <;> rw [kind] <;> exact nofun

/-- The attributes of a node as they are written have the names of its attribute nodes. -/
theorem WellFormed.nodup_attributeValues (wellFormed : arena.WellFormed) (slot : Nat) :
    ((arena.attributeValues slot).map (·.1)).Nodup := by
  refine .of_map some ?_
  rw [attributeValues_eq, List.map_map, List.map_map]
  refine (List.map_congr_left fun given listed => ?_) ▸ wellFormed.names_nodup slot
  rw [wellFormed.payload_written listed]
  rfl

/-- **The fragment of a node is settled.** -/
theorem WellFormed.settled_fragment (wellFormed : arena.WellFormed) (slot : Nat) :
    (arena.fragment slot).Settled := by
  induction slot using wellFormed.induction with
  | step slot ih =>
      have names := wellFormed.nodup_attributeValues slot
      have plain : ∀ child ∈ (arena.children slot).map arena.fragment,
          child.isAttribute = false :=
        List.forall_mem_map.mpr fun _ listed => wellFormed.isAttribute_child listed
      rw [wellFormed.fragment_eq slot, topFragment]
      split
      · exact .element names plain (List.forall_mem_map.mpr ih)
      · exact .element names plain (List.forall_mem_map.mpr ih)
      · exact .attribute _ _
      · exact .text _

theorem WellFormed.settled_content (wellFormed : arena.WellFormed) (slot : Nat) :
    ∀ fragment ∈ arena.content slot, fragment.Settled := by
  intro fragment member
  rw [content] at member
  split at member
  · obtain ⟨child, _, rfl⟩ := List.mem_map.mp member
    exact wellFormed.settled_fragment child
  · obtain rfl := List.mem_singleton.mp member
    exact wellFormed.settled_fragment slot

/-! ## What keeps its fragment -/

/-- A node keeps its fragment if it and all its descendants keep what they say. -/
theorem WellFormed.fragment_congr (wellFormed : before.WellFormed) (still : after.WellFormed)
    (within : Nat → Prop)
    (closed : ∀ {slot child : Nat}, within slot → child ∈ before.children slot → within child)
    (payload : ∀ {slot : Nat}, within slot →
      (after.record slot).payload = (before.record slot).payload)
    (children : ∀ {slot : Nat}, within slot → after.children slot = before.children slot)
    (attributes : ∀ {slot : Nat}, within slot →
      after.attributeValues slot = before.attributeValues slot)
    (slot : Nat) (inside : within slot) : after.fragment slot = before.fragment slot := by
  induction slot using wellFormed.induction with
  | step slot ih =>
      rw [still.fragment_eq slot, wellFormed.fragment_eq slot, topFragment, topFragment,
        payload inside, attributes inside, children inside,
        List.map_congr_left fun child listed => ih child listed (closed inside listed)]

/-- Nodes with the same records whose attributes have the same records have the same
attributes as they are written. -/
theorem attributeValues_congr (same : after.record slot = before.record slot)
    (given : ∀ given ∈ before.attributes slot, after.record given = before.record given) :
    after.attributeValues slot = before.attributeValues slot := by
  rw [attributeValues, attributeValues, attributes, same]
  exact List.map_congr_left fun other listed => by rw [given other listed]

/-- What comes after a node keeps its fragment while content is added to the node. -/
theorem Grows.fragment_eq (grows : Grows slot before after) (wellFormed : before.WellFormed)
    (still : after.WellFormed) {other : Nat} (above : slot < other) (inside : other < before.size)
    (notGiven : other ∉ before.attributes slot) :
    after.fragment other = before.fragment other := by
  have kept : ∀ {other : Nat}, slot < other ∧ other < before.size ∧
      other ∉ before.attributes slot → after.record other = before.record other :=
    fun ⟨above, inside, notGiven⟩ => grows.kept inside (Nat.ne_of_gt above) notGiven
  refine wellFormed.fragment_congr still
    (fun other => slot < other ∧ other < before.size ∧ other ∉ before.attributes slot) ?_
    (fun within => by rw [kept within])
    (fun within => by rw [Arena.children, kept within, Arena.children]) ?_ other
    ⟨above, inside, notGiven⟩
  · rintro parent child ⟨above, _, _⟩ listed
    obtain ⟨below, inside⟩ := wellFormed.child_lt listed
    exact ⟨Nat.lt_trans above below, inside, wellFormed.child_not_given listed⟩
  · intro owner within
    refine attributeValues_congr (kept within) fun given listed => ?_
    obtain ⟨below, inside⟩ := wellFormed.attribute_lt listed
    refine kept ⟨Nat.lt_trans within.1 below, inside, fun twice => ?_⟩
    have same := (wellFormed.attribute_parent listed).symm.trans
      (wellFormed.attribute_parent twice)
    rw [Option.some.injEq] at same
    exact Nat.ne_of_gt within.1 same

theorem Extends.attributeValues_eq (extend : Extends before after)
    (wellFormed : before.WellFormed) (inside : slot < before.size) :
    after.attributeValues slot = before.attributeValues slot :=
  attributeValues_congr (extend.record_eq inside) fun _ listed =>
    extend.record_eq (wellFormed.attribute_lt listed).2

/-- Every old node keeps its fragment when something is constructed. -/
theorem Extends.fragment_eq (extend : Extends before after) (wellFormed : before.WellFormed)
    (still : after.WellFormed) (inside : slot < before.size) :
    after.fragment slot = before.fragment slot :=
  wellFormed.fragment_congr still (· < before.size) (fun _ listed => (wellFormed.child_lt listed).2)
    (fun inside => by rw [extend.record_eq inside])
    (fun inside => by rw [children, extend.record_eq inside, children])
    (fun inside => extend.attributeValues_eq wellFormed inside) slot inside

/-! ## Giving attributes -/

theorem WellFormed.name?_written (wellFormed : arena.WellFormed) {given : Nat}
    (listed : given ∈ (arena.record slot).attributes) :
    (arena.record given).payload.name? = some (arena.written given).1 := by
  rw [wellFormed.payload_written listed]
  rfl

/-- The attributes of an element after one is given. -/
theorem attributeValues_setAttribute (wellFormed : arena.WellFormed) (inside : slot < arena.size)
    (name value : String) :
    (arena.setAttribute slot name value).attributeValues slot =
      give (arena.attributeValues slot) (name, value) := by
  cases found : arena.attribute? slot name with
  | none =>
      have old : ∀ given ∈ (arena.record slot).attributes,
          (arena.setAttribute slot name value).written given = arena.written given := by
        intro given listed
        rw [written, payload_setAttribute_of_none found inside,
          if_neg (Nat.ne_of_lt (wellFormed.attribute_lt listed).2), written]
      have new : (arena.setAttribute slot name value).written arena.size = (name, value) := by
        rw [written, payload_setAttribute_of_none found inside, if_pos rfl]
        rfl
      rw [attributeValues_eq, attributes_setAttribute_of_none found inside, if_pos rfl,
        List.map_append, List.map_congr_left old, List.map_singleton, new, ← attributeValues_eq,
        give_of_not_mem]
      intro other member same
      rw [attributeValues_eq, List.mem_map] at member
      obtain ⟨given, listed, rfl⟩ := member
      exact attribute?_eq_none found listed ((wellFormed.name?_written listed).trans (same ▸ rfl))
  | some given =>
      obtain ⟨listed, named⟩ := attribute?_eq_some found
      have last := (wellFormed.attribute_lt listed).2
      obtain ⟨earlier, later, split⟩ := List.append_of_mem listed
      have names := wellFormed.names_nodup slot
      rw [split, List.map_append, List.map_cons, List.nodup_append, List.nodup_cons] at names
      have others : ∀ other ∈ earlier ++ later, other ≠ given := by
        rintro other member rfl
        rcases List.mem_append.mp member with member | member
        · exact names.2.2 _ (List.mem_map_of_mem member) _ List.mem_cons_self rfl
        · exact names.2.1.1 (List.mem_map_of_mem member)
      have old : ∀ other ∈ earlier ++ later,
          (arena.setAttribute slot name value).written other = arena.written other := by
        intro other member
        rw [written, payload_setAttribute_of_some found last, if_neg (others other member), written]
      have new : (arena.setAttribute slot name value).written given = (name, value) := by
        rw [written, payload_setAttribute_of_some found last, if_pos rfl]
        rfl
      rw [attributeValues_eq, attributes_setAttribute_of_some found last, attributeValues_eq,
        split, List.map_append, List.map_append, List.map_cons, List.map_cons, new,
        List.map_congr_left fun other member => old other (List.mem_append_left _ member),
        List.map_congr_left fun other member => old other (List.mem_append_right _ member)]
      have same : (arena.written given).1 = name := by
        rw [wellFormed.name?_written listed, Option.some.injEq] at named
        exact named
      refine (give_append ?_ same).symm
      intro other member isName
      obtain ⟨twin, twinListed, rfl⟩ := List.mem_map.mp member
      refine names.2.2 _ (List.mem_map_of_mem twinListed) _ List.mem_cons_self ?_
      rw [wellFormed.name?_written (split ▸ List.mem_append_left _ twinListed), isName, named]

theorem attributeValues_setAttributes (attributes : List (String × String)) :
    ∀ {arena : Arena}, arena.WellFormed → slot < arena.size →
      (arena.record slot).payload.kind = .element →
      (arena.setAttributes slot attributes).attributeValues slot =
        attributes.foldl give (arena.attributeValues slot) := by
  induction attributes with
  | nil => exact fun _ _ _ => rfl
  | cons pair rest ih =>
      intro arena wellFormed inside kind
      have grows := Grows.setAttribute wellFormed inside pair.1 pair.2
      rw [List.foldl_cons, ← attributeValues_setAttribute wellFormed inside]
      exact ih (wellFormed.setAttribute inside kind)
        (Nat.lt_of_lt_of_le inside grows.size_le) (grows.payload ▸ kind)

theorem children_setAttribute (wellFormed : arena.WellFormed) (inside : slot < arena.size)
    {name value : String} (other : Nat) :
    (arena.setAttribute slot name value).children other = arena.children other := by
  rw [children, children]
  cases found : arena.attribute? slot name with
  | none => rw [children_setAttribute_of_none found inside]
  | some given =>
      have last := (wellFormed.attribute_lt (attribute?_eq_some found).1).2
      rw [children_setAttribute_of_some found last]

theorem children_setAttributes (attributes : List (String × String)) (other : Nat) :
    ∀ {arena : Arena}, arena.WellFormed → slot < arena.size →
      (arena.record slot).payload.kind = .element →
      (arena.setAttributes slot attributes).children other = arena.children other := by
  induction attributes with
  | nil => exact fun _ _ _ => rfl
  | cons pair rest ih =>
      intro arena wellFormed inside kind
      have grows := Grows.setAttribute wellFormed inside pair.1 pair.2
      rw [← children_setAttribute wellFormed inside other]
      exact ih (wellFormed.setAttribute inside kind)
        (Nat.lt_of_lt_of_le inside grows.size_le) (grows.payload ▸ kind)

/-! ## Adding settled fragments -/

/-- An element has been given content: its attributes are those it had with those of the
content, and the other fragments of the content are read from new children. -/
structure Receives (slot : Nat) (before after : Arena) (content : List Fragment) : Prop where
  attributes : after.attributeValues slot =
    (attributesIn content).foldl give (before.attributeValues slot)
  children : ∃ added, after.children slot = before.children slot ++ added ∧
    added.map after.fragment = childrenIn content

namespace Receives

theorem refl (slot : Nat) (arena : Arena) : Receives slot arena arena [] :=
  ⟨rfl, [], (List.append_nil _).symm, rfl⟩

theorem trans {first second : List Fragment} (begins : Receives slot before middle first)
    (continues : Receives slot middle after second) (formed : middle.WellFormed)
    (still : after.WellFormed) (grows : Grows slot middle after) :
    Receives slot before after (first ++ second) where
  attributes := by
    rw [continues.attributes, begins.attributes, attributesIn_append, List.foldl_append]
  children := by
    obtain ⟨earlier, firstChildren, firstFragments⟩ := begins.children
    obtain ⟨later, secondChildren, secondFragments⟩ := continues.children
    refine ⟨earlier ++ later, ?_, ?_⟩
    · rw [secondChildren, firstChildren, List.append_assoc]
    · rw [List.map_append, secondFragments, childrenIn_append, ← firstFragments]
      congr 1
      refine List.map_congr_left fun child member => ?_
      have listed : child ∈ middle.children slot :=
        firstChildren ▸ List.mem_append_right _ member
      obtain ⟨above, inside⟩ := formed.child_lt listed
      exact grows.fragment_eq formed still above inside (formed.child_not_given listed)

end Receives

/-- A new last child whose fragment is settled in the end has been received. -/
theorem Receives.ofChild (wellFormed : arena.WellFormed) (container : arena.IsContainer slot)
    {payload : Payload} (grows : Grows arena.size (arena.addChild slot payload) after)
    {fragment : Fragment} (read : after.fragment arena.size = fragment)
    (plain : fragment.isAttribute = false) : Receives slot arena after [fragment] where
  attributes := by
    have kept : ∀ other < arena.size, other ≠ slot → after.record other = arena.record other := by
      intro other inside different
      rw [grows.record_ofChild container inside, record_addChild container.lt_size,
        if_neg different, add, record_push, if_neg (Nat.ne_of_lt inside)]
    have same : (after.record slot).attributes = (arena.record slot).attributes := by
      rw [grows.record_ofChild container container.lt_size, attributes_addChild container.lt_size]
    rw [attributesIn_eq_nil (by simpa using plain), List.foldl_nil, attributeValues_eq, same,
      attributeValues_eq]
    refine List.map_congr_left fun given listed => ?_
    obtain ⟨above, inside⟩ := wellFormed.attribute_lt listed
    rw [written, kept given inside (Nat.ne_of_gt above), written]
  children := by
    refine ⟨[arena.size], ?_, ?_⟩
    · rw [Arena.children, grows.record_ofChild container container.lt_size,
        children_addChild container.lt_size, if_pos rfl, Arena.children]
    · rw [List.map_singleton, read, childrenIn_eq_self (by simpa using plain)]

mutual
/-- A fragment is read back settled from where it is added, if it can be added there. -/
theorem graft_receives_settle : (fragment : Fragment) → ∀ {arena : Arena} {slot : Nat},
    arena.WellFormed → arena.IsContainer slot →
    (fragment.isAttribute = true → (arena.record slot).payload.kind = .element) →
      Receives slot arena (arena.graft slot fragment) [fragment.settle]
  | .text value, arena, slot, wellFormed, container, _ => by
      have still : (arena.addChild slot (.text value)).WellFormed :=
        wellFormed.addChild container (.inr rfl)
      rw [graft, settle]
      refine .ofChild wellFormed container (.refl _ _) ?_ rfl
      rw [still.fragment_eq, topFragment, payload_addChild container.lt_size, if_pos rfl]
  | .attribute name value, arena, slot, wellFormed, container, kind => by
      rw [graft, if_pos (kind rfl), settle]
      refine ⟨attributeValues_setAttribute wellFormed container.lt_size name value, [], ?_, rfl⟩
      rw [List.append_nil, children_setAttribute wellFormed container.lt_size]
  | .element name attributes children, arena, slot, wellFormed, container, _ => by
      have inside := container.lt_size
      have added : (arena.addChild slot (.element name)).WellFormed :=
        wellFormed.addChild container (.inl rfl)
      have addedInside : arena.size < (arena.addChild slot (.element name)).size := by
        rw [size_addChild]
        exact Nat.lt_succ_self _
      have payload : ((arena.addChild slot (.element name)).record arena.size).payload =
          .element name := by
        rw [payload_addChild inside, if_pos rfl]
      have elementKind : ((arena.addChild slot (.element name)).record arena.size).payload.kind =
          .element := by
        rw [payload]
        rfl
      have unlinked := links_of_size_le (Nat.le_refl arena.size)
      obtain ⟨given, givenGrows⟩ := setAttributes_grows attributes added addedInside elementKind
      have givenValues := attributeValues_setAttributes attributes added addedInside elementKind
      have givenInside := Nat.lt_of_lt_of_le addedInside givenGrows.size_le
      have givenKind := givenGrows.payload ▸ elementKind
      obtain ⟨grafted, graftedGrows⟩ :=
        graftAll_grows children given ⟨givenInside, .inr givenKind⟩
      have received := graftAll_receives_settle children given ⟨givenInside, .inr givenKind⟩
        fun _ _ _ => givenKind
      have noValues : (arena.addChild slot (.element name)).attributeValues arena.size = [] := by
        rw [attributeValues_eq, attributes_addChild inside, unlinked.2.2]
        rfl
      have noChildren : (arena.addChild slot (.element name)).children arena.size = [] := by
        rw [Arena.children, children_addChild inside, if_neg (Nat.ne_of_gt inside), unlinked.2.1]
      obtain ⟨slots, slotsEq, fragments⟩ := received.children
      rw [children_setAttributes attributes _ added addedInside elementKind, noChildren,
        List.nil_append] at slotsEq
      rw [graft, settle]
      refine .ofChild wellFormed container (givenGrows.trans graftedGrows) ?_ rfl
      rw [grafted.fragment_eq, topFragment, graftedGrows.payload, givenGrows.payload, payload,
        received.attributes, givenValues, noValues, slotsEq, fragments]

theorem graftAll_receives_settle : (content : List Fragment) → ∀ {arena : Arena} {slot : Nat},
    arena.WellFormed → arena.IsContainer slot →
    (∀ fragment ∈ content, fragment.isAttribute = true →
      (arena.record slot).payload.kind = .element) →
      Receives slot arena (arena.graftAll slot content) (settleAll content)
  | [], arena, slot, wellFormed, container, kind => by
      rw [graftAll, settleAll]
      exact .refl _ _
  | fragment :: rest, arena, slot, wellFormed, container, kind => by
      obtain ⟨firstKind, restKind⟩ := List.forall_mem_cons.mp kind
      obtain ⟨formed, grows⟩ := graft_grows fragment wellFormed container
      obtain ⟨still, later⟩ := graftAll_grows rest formed (grows.isContainer container)
      have first := graft_receives_settle fragment wellFormed container firstKind
      have others := graftAll_receives_settle rest formed (grows.isContainer container)
        (grows.payload.symm ▸ restKind)
      rw [graftAll, settleAll]
      exact first.trans others formed still later
end

/-- **Settled content is read back from where it is added.** -/
theorem graftAll_receives {content : List Fragment}
    (settled : ∀ fragment ∈ content, fragment.Settled) (wellFormed : arena.WellFormed)
    (inside : slot < arena.size) (kind : (arena.record slot).payload.kind = .element) :
    Receives slot arena (arena.graftAll slot content) content := by
  have received := graftAll_receives_settle content wellFormed ⟨inside, .inr kind⟩
    fun _ _ _ => kind
  rwa [Settled.settleAll_eq_self content settled] at received

/-- Attributes are dropped where they are added to anything but an element. -/
theorem graftAll_childrenIn (fragments : List Fragment) :
    ∀ {arena : Arena} {slot : Nat}, arena.WellFormed → arena.IsContainer slot →
      (arena.record slot).payload.kind ≠ .element →
        arena.graftAll slot (Fragment.childrenIn fragments) = arena.graftAll slot fragments := by
  induction fragments with
  | nil =>
      intro arena slot _ _ _
      rfl
  | cons fragment rest ih =>
      intro arena slot wellFormed container kind
      obtain ⟨formed, grows⟩ := graft_grows fragment wellFormed container
      have kindStill : ((arena.graft slot fragment).record slot).payload.kind ≠ .element :=
        grows.payload ▸ kind
      have others := ih formed (grows.isContainer container) kindStill
      cases fragment with
      | «attribute» name value =>
          have dropped : arena.graft slot (.attribute name value) = arena := by
            rw [graft, if_neg kind]
          rw [graftAll, ← others, dropped]
          rfl
      | element name attributes children =>
          rw [graftAll, ← others]
          rfl
      | text value =>
          rw [graftAll, ← others]
          rfl

/-! ## New elements -/

/-- **A new element says what its content says.**  Its attributes are those in the content,
a later one replacing an earlier one of the same name, and its children are copies of the
rest. -/
theorem WellFormed.fragment_createElement (wellFormed : arena.WellFormed) (name : String)
    {content : List Fragment} (settled : ∀ fragment ∈ content, fragment.Settled) :
    (arena.createElement name content).fragment arena.size =
      .element name ((attributesIn content).foldl give []) (childrenIn content) := by
  have unlinked := links_of_size_le (Nat.le_refl arena.size)
  have added : (arena.add (.element name) none).WellFormed := wellFormed.add (.inl rfl)
  have container : (arena.add (.element name) none).IsContainer arena.size := isContainer_add name
  have payload : ((arena.add (.element name) none).record arena.size).payload = .element name := by
    rw [payload_add, if_pos rfl]
  have received := graftAll_receives settled added container.lt_size
    (by rw [payload]; rfl)
  obtain ⟨still, grows⟩ := graftAll_grows content added container
  obtain ⟨slots, slotsEq, fragments⟩ := received.children
  have noValues : (arena.add (.element name) none).attributeValues arena.size = [] := by
    rw [attributeValues_eq, attributes_add, unlinked.2.2]
    rfl
  have noChildren : (arena.add (.element name) none).children arena.size = [] := by
    rw [children, children_add, unlinked.2.1]
  rw [noChildren, List.nil_append] at slotsEq
  rw [Arena.createElement, still.fragment_eq, topFragment, grows.payload, payload,
    received.attributes,
    noValues, slotsEq, fragments]

theorem payload_createElement (wellFormed : arena.WellFormed) (name : String)
    (content : List Fragment) :
    ((arena.createElement name content).record arena.size).payload = .element name := by
  have added : (arena.add (.element name) none).WellFormed := wellFormed.add (.inl rfl)
  obtain ⟨_, grows⟩ := graftAll_grows content added (isContainer_add name)
  rw [createElement, grows.payload, payload_add, if_pos rfl]

theorem fragment_createText (wellFormed : arena.WellFormed) (value : String) :
    (arena.createText value).fragment arena.size = .text value := by
  rw [(wellFormed.createText value).fragment_eq, topFragment, createText, payload_add, if_pos rfl]

end Arena

end TreeQuery
