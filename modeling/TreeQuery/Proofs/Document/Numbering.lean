import TreeQuery.Proofs.Document.Loading

/-!
# Document order in slots

A document that is built from fragments has its nodes in document order: the links of a node lead to
later and later slots, and between a node and a slot below it lie only slots below that node
(`Arena.Numbered`).  This needs attributes to stand in tags only.  An attribute among the children
of an element is given to the element after earlier children, and its slot comes after theirs.

While a document is built, its nodes are numbered at every moment, and whatever comes after the node
that is given content is below that node (`Arena.Open`).  So the next slot can be linked there.
-/

set_option autoImplicit false

namespace TreeQuery

namespace Fragment

mutual
/-- Whether attributes stand in tags only: no element, at any depth, has one among its children. -/
def attributesInTags : Fragment → Bool
  | .element _ _ children => areChildren children
  | .attribute _ _ | .text _ => true

/-- Whether fragments can stand between tags: none is an attribute, and in all of them attributes
stand in tags only. -/
def areChildren : List Fragment → Bool
  | [] => true
  | fragment :: rest => !fragment.isAttribute && fragment.attributesInTags && areChildren rest
end

theorem areChildren_iff {fragments : List Fragment} :
    areChildren fragments = true ↔
      ∀ fragment ∈ fragments, fragment.isAttribute = false ∧ fragment.attributesInTags = true := by
  induction fragments with
  | nil => simp [areChildren]
  | cons fragment rest ih => simp [areChildren, ih]

theorem areChildren_childrenIn {fragments : List Fragment}
    (tagged : ∀ fragment ∈ fragments, fragment.attributesInTags = true) :
    areChildren (childrenIn fragments) = true := by
  rw [areChildren_iff]
  intro fragment member
  obtain ⟨listed, plain⟩ := List.mem_filter.mp member
  exact ⟨by simpa using plain, tagged fragment listed⟩

/-- What is read from a text has attributes in tags only. -/
theorem Sound.attributesInTags {fragment : Fragment} (sound : fragment.Sound) :
    fragment.attributesInTags = true := by
  induction sound with
  | text _ => rw [Fragment.attributesInTags]
  | element _ _ inside ih =>
      rw [Fragment.attributesInTags, areChildren_iff]
      exact fun child listed => ⟨(inside child listed).isAttribute, ih child listed⟩

end Fragment

namespace Arena

variable {arena after : Arena} {slot owner link : Nat}

/-! ## Numbered arenas -/

/-- The slots linked below a node: its attributes, then its children. -/
def links (arena : Arena) (slot : Nat) : List Nat := arena.attributes slot ++ arena.children slot

theorem WellFormed.links_lt (wellFormed : arena.WellFormed) (listed : link ∈ arena.links slot) :
    slot < link ∧ link < arena.size := by
  rcases List.mem_append.mp listed with given | child
  · exact wellFormed.attribute_lt given
  · exact wellFormed.child_lt child

theorem WellFormed.mem_links_iff (wellFormed : arena.WellFormed) :
    link ∈ arena.links slot ↔ (arena.record link).parent = some slot := by
  rw [links, List.mem_append]
  constructor
  · rintro (given | child)
    · exact wellFormed.attribute_parent given
    · exact wellFormed.child_parent child
  · intro linked
    exact (wellFormed.listed linked).symm

/-- The slots of an arena number one tree in document order. -/
structure Numbered (arena : Arena) : Prop where
  /-- Everything but the document node is linked from somewhere. -/
  linked : ∀ {slot : Nat}, 0 < slot → slot < arena.size →
    ∃ owner, (arena.record slot).parent = some owner
  /-- Links lead to later and later slots. -/
  ascending : ∀ (slot : Nat), (arena.links slot).Pairwise (· < ·)
  /-- What lies between a node and a slot linked below it is below the node as well. -/
  nested : ∀ {slot owner between upper : Nat}, (arena.record slot).parent = some owner →
    owner < between → between < slot → (arena.record between).parent = some upper → owner ≤ upper

/-! ## Building in document order -/

/-- A numbered arena in which a node can be given content: whatever comes after the node is below
it. -/
structure Open (slot : Nat) (arena : Arena) : Prop where
  numbered : arena.Numbered
  wellFormed : arena.WellFormed
  inside : slot < arena.size
  below : ∀ {later upper : Nat}, slot < later → (arena.record later).parent = some upper →
    slot ≤ upper

namespace Open

/-- A change that leaves all links leaves an arena open. -/
theorem congr (opened : Open slot arena) (formed : after.WellFormed)
    (size : after.size = arena.size)
    (parent : ∀ other, (after.record other).parent = (arena.record other).parent)
    (links : ∀ other, after.links other = arena.links other) : Open slot after where
  numbered :=
    { linked := by
        intro other positive inside
        rw [size] at inside
        rw [parent]
        exact opened.numbered.linked positive inside
      ascending := by
        intro other
        rw [links]
        exact opened.numbered.ascending other
      nested := by
        intro other owner between upper linked
        rw [parent] at linked ⊢
        exact opened.numbered.nested linked }
  wellFormed := formed
  inside := size ▸ opened.inside
  below := by
    intro later upper
    rw [parent]
    exact opened.below

/-- The next slot can be linked as the last one below the node. -/
theorem append (opened : Open slot arena) (formed : after.WellFormed)
    (size : after.size = arena.size + 1)
    (parent : ∀ other, (after.record other).parent =
      if other = arena.size then some slot else (arena.record other).parent)
    (links : ∀ other, after.links other =
      if other = slot then arena.links slot ++ [arena.size] else arena.links other) :
    Open slot after := by
  -- a slot that has been linked is one of the old slots or the new one
  have old : ∀ {other owner}, (after.record other).parent = some owner → other ≤ arena.size := by
    intro other owner linked
    by_contra outside
    rw [parent, if_neg (by omega), (links_of_size_le (by omega)).1] at linked
    cases linked
  have below : ∀ {later upper}, slot < later → (after.record later).parent = some upper →
      slot ≤ upper := by
    intro later upper after linked
    rw [parent] at linked
    split at linked
    · exact Nat.le_of_eq (Option.some.inj linked)
    · exact opened.below after linked
  refine ⟨⟨?_, ?_, ?_⟩, formed, ?_, below⟩
  · intro other positive inside
    rw [parent]
    split
    · exact ⟨slot, rfl⟩
    · exact opened.numbered.linked positive (by omega)
  · intro other
    rw [links]
    split
    · rw [List.pairwise_append]
      refine ⟨opened.numbered.ascending slot, List.pairwise_singleton _ _, ?_⟩
      intro link listed last member
      rw [List.mem_singleton.mp member]
      exact (opened.wellFormed.links_lt listed).2
    · exact opened.numbered.ascending other
  · intro other owner between upper linked later earlier linkedBetween
    by_cases new : other = arena.size
    · rw [parent, if_pos new, Option.some.injEq] at linked
      subst linked
      exact below later linkedBetween
    · have inside := old linked
      rw [parent, if_neg new] at linked
      rw [parent, if_neg (by omega)] at linkedBetween
      exact opened.numbered.nested linked later earlier linkedBetween
  · rw [size]
    exact Nat.lt_succ_of_lt opened.inside

theorem addChild (opened : Open slot arena) (container : arena.IsContainer slot)
    {payload : Payload} (kind : payload.kind = .element ∨ payload.kind = .text) :
    Open slot (arena.addChild slot payload) := by
  refine opened.append (opened.wellFormed.addChild container kind) size_addChild
    (fun other => parent_addChild opened.inside) fun other => ?_
  rw [links, attributes, children, attributes_addChild opened.inside,
    children_addChild opened.inside]
  split
  · next same => rw [same, links, attributes, children, List.append_assoc]
  · rfl

/-- The last node can be given content. -/
theorem last (opened : Open slot arena) {last : Nat} (size : arena.size = last + 1) :
    Open last arena where
  numbered := opened.numbered
  wellFormed := opened.wellFormed
  inside := by omega
  below := by
    intro later upper after linked
    rw [(links_of_size_le (by omega)).1] at linked
    cases linked

/-- Once a new last child has its content, its parent can be given more. -/
theorem ofChild (opened : Open slot arena) (container : arena.IsContainer slot)
    {payload : Payload} (grows : Grows arena.size (arena.addChild slot payload) after)
    (child : Open arena.size after) : Open slot after where
  numbered := child.numbered
  wellFormed := child.wellFormed
  inside := Nat.lt_trans opened.inside child.inside
  below := by
    intro later upper follows linked
    rcases Nat.lt_trichotomy later arena.size with old | rfl | new
    · rw [grows.record_ofChild container old, parent_addChild opened.inside,
        if_neg (Nat.ne_of_lt old)] at linked
      exact opened.below follows linked
    · have listed : arena.size ∈ (after.record slot).children := by
        rw [grows.record_ofChild container opened.inside, children_addChild opened.inside,
          if_pos rfl]
        exact List.mem_append_right _ List.mem_cons_self
      rw [child.wellFormed.child_parent listed, Option.some.injEq] at linked
      exact Nat.le_of_eq linked
    · exact Nat.le_trans (Nat.le_of_lt opened.inside) (child.below new linked)

theorem setAttribute (opened : Open slot arena)
    (kind : (arena.record slot).payload.kind = .element) (childless : arena.children slot = [])
    (name value : String) : Open slot (arena.setAttribute slot name value) := by
  have formed : (arena.setAttribute slot name value).WellFormed :=
    opened.wellFormed.setAttribute opened.inside kind
  cases found : arena.attribute? slot name with
  | some given =>
      have inside := (opened.wellFormed.attribute_lt (attribute?_eq_some found).1).2
      refine opened.congr formed (size_setAttribute_of_some found)
        (fun other => parent_setAttribute_of_some found inside) fun other => ?_
      rw [links, attributes, children, attributes_setAttribute_of_some found inside,
        children_setAttribute_of_some found inside]
      rfl
  | none =>
      refine opened.append formed (size_setAttribute_of_none found)
        (fun other => parent_setAttribute_of_none found opened.inside) fun other => ?_
      rw [links, attributes, children, attributes_setAttribute_of_none found opened.inside,
        children_setAttribute_of_none found opened.inside]
      rw [children] at childless
      split
      · next same =>
          rw [same, links, attributes, children, childless, List.append_nil, List.append_nil]
      · rfl

theorem setAttributes (attributes : List (String × String)) :
    ∀ {arena : Arena}, Open slot arena → (arena.record slot).payload.kind = .element →
      arena.children slot = [] → Open slot (arena.setAttributes slot attributes) := by
  induction attributes with
  | nil => exact fun opened _ _ => opened
  | cons pair rest ih =>
      intro arena opened kind childless
      have grows := Grows.setAttribute opened.wellFormed opened.inside pair.1 pair.2
      refine ih (opened.setAttribute kind childless pair.1 pair.2) (grows.payload ▸ kind) ?_
      rw [children_setAttribute opened.wellFormed opened.inside]
      exact childless

end Open

open Fragment (attributesInTags areChildren areChildren_childrenIn)

mutual
/-- Adding a child below an open node leaves the node open. -/
theorem graft_opened : (fragment : Fragment) → fragment.isAttribute = false →
    fragment.attributesInTags = true →
    ∀ {arena : Arena} {slot : Nat}, arena.IsContainer slot → Open slot arena →
      Open slot (arena.graft slot fragment)
  | .text value, _, _, arena, slot, container, opened => by
      rw [graft]
      exact opened.addChild container (.inr rfl)
  | .element name attributes children, _, tagged, arena, slot, container, opened => by
      rw [attributesInTags] at tagged
      have added : Open arena.size (arena.addChild slot (.element name)) :=
        (opened.addChild container (.inl rfl)).last size_addChild
      have kind : ((arena.addChild slot (.element name)).record arena.size).payload.kind =
          .element := by
        rw [payload_addChild container.lt_size, if_pos rfl]
        rfl
      have childless : (arena.addChild slot (.element name)).children arena.size = [] := by
        rw [Arena.children, children_addChild container.lt_size,
          if_neg (Nat.ne_of_gt container.lt_size),
          (links_of_size_le (Nat.le_refl arena.size)).2.1]
      have given := Open.setAttributes attributes added kind childless
      obtain ⟨_, givenGrows⟩ := setAttributes_grows attributes added.wellFormed added.inside kind
      have givenContainer := givenGrows.isContainer ⟨added.inside, .inr kind⟩
      obtain ⟨_, graftedGrows⟩ := graftAll_grows children given.wellFormed givenContainer
      rw [graft]
      exact opened.ofChild container (givenGrows.trans graftedGrows)
        (graftAll_opened children tagged givenContainer given)

theorem graftAll_opened : (fragments : List Fragment) → areChildren fragments = true →
    ∀ {arena : Arena} {slot : Nat}, arena.IsContainer slot → Open slot arena →
      Open slot (arena.graftAll slot fragments)
  | [], _, arena, slot, _, opened => by
      rw [graftAll]
      exact opened
  | fragment :: rest, tagged, arena, slot, container, opened => by
      rw [areChildren, Bool.and_eq_true, Bool.and_eq_true, Bool.not_eq_true'] at tagged
      obtain ⟨⟨plain, inside⟩, others⟩ := tagged
      obtain ⟨_, grows⟩ := graft_grows fragment opened.wellFormed container
      rw [graftAll]
      exact graftAll_opened rest others (grows.isContainer container)
        (graft_opened fragment plain inside container opened)
end

theorem Open.empty : Open 0 Arena.empty := by
  have unlinked : ∀ {slot}, (Arena.empty.record slot).parent = none ∧
      Arena.empty.links slot = [] := by
    intro slot
    rcases Nat.eq_zero_or_pos slot with rfl | positive
    · exact ⟨rfl, rfl⟩
    · have outside : Arena.empty.size ≤ slot := positive
      obtain ⟨parent, children, attributes⟩ := links_of_size_le outside
      refine ⟨parent, ?_⟩
      rw [links, Arena.attributes, Arena.children, attributes, children]
      rfl
  refine ⟨⟨?_, ?_, ?_⟩, .empty, Nat.one_pos, ?_⟩
  · intro slot positive inside
    exact absurd positive (Nat.not_lt.mpr (Nat.le_of_lt_succ inside))
  · intro slot
    rw [unlinked.2]
    exact .nil
  · intro slot owner between upper linked
    rw [unlinked.1] at linked
    cases linked
  · intro later upper _ linked
    rw [unlinked.1] at linked
    cases linked

/-- **A document built from fragments with attributes in tags only is numbered in document
order.**  Attributes that stand alone are dropped. -/
theorem numbered_ofFragments {fragments : List Fragment}
    (tagged : ∀ fragment ∈ fragments, fragment.attributesInTags = true) :
    (Arena.ofFragments fragments).Numbered := by
  have container : Arena.empty.IsContainer 0 := ⟨Nat.one_pos, .inl rfl⟩
  have notElement : (Arena.empty.record 0).payload.kind ≠ .element := by decide
  rw [ofFragments, ← graftAll_childrenIn fragments .empty container notElement]
  exact (graftAll_opened _ (areChildren_childrenIn tagged) container Open.empty).numbered

end Arena

/-- Every document that is read from a text is numbered in document order. -/
theorem Document.numbered_load {uri : Option String} {text : String} {document : Document}
    (loaded : Document.load uri text = .ok document) : document.arena.Numbered := by
  obtain ⟨fragments, parsed, rfl⟩ := load_eq_ok.mp loaded
  exact Arena.numbered_ofFragments fun fragment listed =>
    ((Markup.parse_sound parsed).1 fragment listed).attributesInTags

end TreeQuery
