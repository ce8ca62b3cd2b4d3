import TreeQuery.Proofs.Document.WellFormed

/-!
# Growth of arenas

Giving content to a node adds records and changes two kinds of old ones: the record of the
node itself, whose lists get longer, and those of its attributes, whose values can be
replaced.  All other old records stay (`Grows`).  Constructing a text or an element adds
records and changes no old one at all (`Extends`), because a new element has no attributes
that could be replaced.

An arena is reachable when it is a document built from fragments in which texts and
elements have then been constructed in any order (`Develops`).  Every reachable arena is
well formed.
-/

set_option autoImplicit false

namespace TreeQuery.Arena

variable {arena before middle after : Arena} {slot : Nat}

/-! ## Content below a node -/

/-- What giving content to a node changes. -/
structure Grows (slot : Nat) (before after : Arena) : Prop where
  size_le : before.size ≤ after.size
  kept : ∀ {other : Nat}, other < before.size → other ≠ slot →
    other ∉ (before.record slot).attributes → after.record other = before.record other
  payload : (after.record slot).payload = (before.record slot).payload
  attributes : ∀ {given : Nat}, given ∈ (after.record slot).attributes →
    given ∈ (before.record slot).attributes ∨ before.size ≤ given

namespace Grows

theorem refl (slot : Nat) (arena : Arena) : Grows slot arena arena where
  size_le := Nat.le_refl _
  kept _ _ _ := rfl
  payload := rfl
  attributes := .inl

theorem trans (first : Grows slot before middle) (second : Grows slot middle after) :
    Grows slot before after where
  size_le := Nat.le_trans first.size_le second.size_le
  kept := by
    intro other inside different notGiven
    rw [second.kept (Nat.lt_of_lt_of_le inside first.size_le) different]
    · exact first.kept inside different notGiven
    · intro given
      rcases first.attributes given with earlier | later
      · exact notGiven earlier
      · omega
  payload := second.payload.trans first.payload
  attributes := by
    intro given listed
    rcases second.attributes listed with earlier | later
    · exact first.attributes earlier
    · exact .inr (Nat.le_trans first.size_le later)

theorem isContainer (grows : Grows slot before after) (container : before.IsContainer slot) :
    after.IsContainer slot where
  lt_size := Nat.lt_of_lt_of_le container.lt_size grows.size_le
  kind := grows.payload ▸ container.kind

theorem addChild (container : arena.IsContainer slot) (payload : Payload) :
    Grows slot arena (arena.addChild slot payload) where
  size_le := by rw [size_addChild]; exact Nat.le_succ _
  kept := by
    intro other inside different _
    rw [record_addChild container.lt_size, if_neg different, Arena.add, record_push,
      if_neg (Nat.ne_of_lt inside)]
  payload := by
    rw [payload_addChild container.lt_size, if_neg (Nat.ne_of_lt container.lt_size)]
  attributes := by
    intro given listed
    rw [attributes_addChild container.lt_size] at listed
    exact .inl listed

theorem setAttribute (wellFormed : arena.WellFormed) (inside : slot < arena.size)
    (name value : String) : Grows slot arena (arena.setAttribute slot name value) := by
  cases found : arena.attribute? slot name with
  | some given =>
      obtain ⟨listed, _⟩ := attribute?_eq_some found
      obtain ⟨above, last⟩ := wellFormed.attribute_lt listed
      constructor
      case size_le => exact Nat.le_of_eq (size_setAttribute_of_some found).symm
      case kept =>
        intro other _ _ notGiven
        rw [record_setAttribute_of_some found last, if_neg]
        rintro rfl
        exact notGiven listed
      case payload =>
        rw [payload_setAttribute_of_some found last, if_neg (Nat.ne_of_lt above)]
      case attributes =>
        intro other listed
        rw [attributes_setAttribute_of_some found last] at listed
        exact .inl listed
  | none =>
      constructor
      case size_le => rw [size_setAttribute_of_none found]; exact Nat.le_succ _
      case kept =>
        intro other old different _
        rw [record_setAttribute_of_none found inside, if_neg different, Arena.add, record_push,
          if_neg (Nat.ne_of_lt old)]
      case payload =>
        rw [payload_setAttribute_of_none found inside, if_neg (Nat.ne_of_lt inside)]
      case attributes =>
        intro other listed
        rw [attributes_setAttribute_of_none found inside, if_pos rfl, List.mem_append,
          List.mem_singleton] at listed
        rcases listed with earlier | rfl
        · exact .inl earlier
        · exact .inr (Nat.le_refl _)

end Grows

/-- Giving attributes to an element changes only the element. -/
theorem setAttributes_grows (attributes : List (String × String)) :
    ∀ {arena : Arena}, arena.WellFormed → slot < arena.size →
      (arena.record slot).payload.kind = .element →
      (arena.setAttributes slot attributes).WellFormed ∧
        Grows slot arena (arena.setAttributes slot attributes) := by
  induction attributes with
  | nil => exact fun wellFormed _ _ => ⟨wellFormed, .refl _ _⟩
  | cons pair rest ih =>
      intro arena wellFormed inside kind
      obtain ⟨name, value⟩ := pair
      have grows := Grows.setAttribute wellFormed inside name value
      have given : (arena.setAttribute slot name value).WellFormed :=
        wellFormed.setAttribute inside kind
      obtain ⟨restFormed, restGrows⟩ := ih given
        (Nat.lt_of_lt_of_le inside grows.size_le) (grows.payload ▸ kind)
      exact ⟨restFormed, grows.trans restGrows⟩

/-- Content below a new last child changes no record that was there before the child. -/
theorem Grows.record_ofChild (container : arena.IsContainer slot) {payload : Payload}
    (grows : Grows arena.size (arena.addChild slot payload) after) {other : Nat}
    (inside : other < arena.size) :
    after.record other = (arena.addChild slot payload).record other := by
  refine grows.kept (by rw [size_addChild]; omega) (Nat.ne_of_lt inside) ?_
  rw [attributes_addChild container.lt_size, (links_of_size_le (Nat.le_refl arena.size)).2.2]
  exact List.not_mem_nil

/-- Content below a new last child is content below the child's parent. -/
theorem Grows.ofChild (container : arena.IsContainer slot) {payload : Payload}
    (grows : Grows arena.size (arena.addChild slot payload) after) : Grows slot arena after := by
  have added := Grows.addChild container payload
  have kept : ∀ {other : Nat}, other < arena.size →
      after.record other = (arena.addChild slot payload).record other :=
    fun inside => grows.record_ofChild container inside
  constructor
  case size_le => exact Nat.le_trans added.size_le grows.size_le
  case kept =>
    intro other inside different notGiven
    rw [kept inside, added.kept inside different notGiven]
  case payload => rw [kept container.lt_size, added.payload]
  case attributes =>
    intro given listed
    rw [kept container.lt_size] at listed
    exact added.attributes listed

mutual
/-- Adding a fragment below a node keeps an arena well formed and changes only the node. -/
theorem graft_grows : (fragment : Fragment) → ∀ {arena : Arena} {slot : Nat}, arena.WellFormed →
    arena.IsContainer slot →
      (arena.graft slot fragment).WellFormed ∧ Grows slot arena (arena.graft slot fragment)
  | .text value, arena, slot, wellFormed, container => by
      rw [graft]
      exact ⟨wellFormed.addChild container (.inr rfl), .addChild container _⟩
  | .attribute name value, arena, slot, wellFormed, container => by
      rw [graft]
      split
      · rename_i kind
        exact ⟨wellFormed.setAttribute container.lt_size kind,
          .setAttribute wellFormed container.lt_size name value⟩
      · exact ⟨wellFormed, .refl _ _⟩
  | .element name attributes children, arena, slot, wellFormed, container => by
      have added : (arena.addChild slot (.element name)).WellFormed :=
        wellFormed.addChild container (.inl rfl)
      have kind : ((arena.addChild slot (.element name)).record arena.size).payload.kind =
          .element := by
        rw [payload_addChild container.lt_size, if_pos rfl]
        rfl
      obtain ⟨given, givenGrows⟩ := setAttributes_grows attributes added
        (by rw [size_addChild]; omega) kind
      obtain ⟨grafted, graftedGrows⟩ := graftAll_grows children given
        (givenGrows.isContainer ⟨by rw [size_addChild]; omega, .inr kind⟩)
      rw [graft]
      exact ⟨grafted, Grows.ofChild container (givenGrows.trans graftedGrows)⟩

theorem graftAll_grows : (fragments : List Fragment) → ∀ {arena : Arena} {slot : Nat},
    arena.WellFormed → arena.IsContainer slot →
      (arena.graftAll slot fragments).WellFormed ∧
        Grows slot arena (arena.graftAll slot fragments)
  | [], arena, slot, wellFormed, container => by
      rw [graftAll]
      exact ⟨wellFormed, .refl _ _⟩
  | fragment :: rest, arena, slot, wellFormed, container => by
      obtain ⟨first, firstGrows⟩ := graft_grows fragment wellFormed container
      obtain ⟨all, allGrows⟩ := graftAll_grows rest first (firstGrows.isContainer container)
      rw [graftAll]
      exact ⟨all, firstGrows.trans allGrows⟩
end

/-! ## Construction -/

/-- An arena to which records have been added and of which none has been changed. -/
structure Extends (before after : Arena) : Prop where
  size_le : before.size ≤ after.size
  record_eq : ∀ {slot : Nat}, slot < before.size → after.record slot = before.record slot

namespace Extends

theorem refl (arena : Arena) : Extends arena arena := ⟨Nat.le_refl _, fun _ => rfl⟩

theorem trans (first : Extends before middle) (second : Extends middle after) :
    Extends before after where
  size_le := Nat.le_trans first.size_le second.size_le
  record_eq inside :=
    (second.record_eq (Nat.lt_of_lt_of_le inside first.size_le)).trans (first.record_eq inside)

end Extends

theorem add_extends (payload : Payload) (parent : Option Nat) :
    Extends arena (arena.add payload parent) where
  size_le := by rw [size_add]; exact Nat.le_succ _
  record_eq inside := by rw [add, record_push, if_neg (Nat.ne_of_lt inside)]

theorem createText_extends (value : String) : Extends arena (arena.createText value) :=
  add_extends _ _

theorem WellFormed.createText (wellFormed : arena.WellFormed) (value : String) :
    (arena.createText value).WellFormed :=
  wellFormed.add (.inr rfl)

/-- A new element that has no content yet can be given children. -/
theorem isContainer_add (name : String) :
    (arena.add (.element name) none).IsContainer arena.size where
  lt_size := by rw [size_add]; exact Nat.lt_succ_self _
  kind := by
    rw [payload_add, if_pos rfl]
    exact .inr rfl

theorem WellFormed.createElement (wellFormed : arena.WellFormed) (name : String)
    (content : List Fragment) : (arena.createElement name content).WellFormed :=
  (graftAll_grows content (wellFormed.add (.inl rfl)) (isContainer_add name)).1

theorem createElement_extends (wellFormed : arena.WellFormed) (name : String)
    (content : List Fragment) : Extends arena (arena.createElement name content) := by
  have added : Extends arena (arena.add (.element name) none) := add_extends _ _
  have formed : (arena.add (.element name) none).WellFormed := wellFormed.add (.inl rfl)
  obtain ⟨_, grows⟩ := graftAll_grows content formed (isContainer_add name)
  refine ⟨Nat.le_trans added.size_le grows.size_le, fun {slot} inside => ?_⟩
  rw [createElement, grows.kept (Nat.lt_of_lt_of_le inside added.size_le) (Nat.ne_of_lt inside),
    added.record_eq inside]
  rw [attributes_add, (links_of_size_le (Nat.le_refl _)).2.2]
  exact List.not_mem_nil

/-! ## Reachable arenas -/

/-- An arena comes from another by constructing texts and elements. -/
inductive Develops (before : Arena) : Arena → Prop where
  | refl : Develops before before
  | createText {arena : Arena} (value : String) :
      Develops before arena → Develops before (arena.createText value)
  | createElement {arena : Arena} (name : String) (content : List Fragment) :
      Develops before arena → Develops before (arena.createElement name content)

namespace Develops

theorem trans (first : Develops before middle) (second : Develops middle after) :
    Develops before after := by
  induction second with
  | refl => exact first
  | createText value _ ih => exact ih.createText value
  | createElement name content _ ih => exact ih.createElement name content

/-- Constructing nodes keeps an arena well formed and only adds to it. -/
theorem extends_wellFormed (develops : Develops before after) (wellFormed : before.WellFormed) :
    after.WellFormed ∧ Extends before after := by
  induction develops with
  | refl => exact ⟨wellFormed, .refl _⟩
  | createText value _ ih => exact ⟨ih.1.createText value, ih.2.trans (createText_extends value)⟩
  | createElement name content _ ih =>
      exact ⟨ih.1.createElement name content, ih.2.trans (createElement_extends ih.1 name content)⟩

end Develops

/-- An arena that can come about: a document built from fragments, and what constructing
texts and elements has made of it. -/
def Reachable (arena : Arena) : Prop :=
  ∃ fragments, Develops (ofFragments fragments) arena

theorem WellFormed.ofFragments (fragments : List Fragment) :
    (Arena.ofFragments fragments).WellFormed :=
  (graftAll_grows fragments .empty ⟨Nat.one_pos, .inl rfl⟩).1

namespace Reachable

theorem ofFragments (fragments : List Fragment) : (Arena.ofFragments fragments).Reachable :=
  ⟨fragments, .refl⟩

theorem empty : Arena.empty.Reachable := ofFragments []

theorem develops (reachable : before.Reachable) (develops : Develops before after) :
    after.Reachable := by
  obtain ⟨fragments, earlier⟩ := reachable
  exact ⟨fragments, earlier.trans develops⟩

/-- **Reachable arenas are well formed.** -/
theorem wellFormed (reachable : arena.Reachable) : arena.WellFormed := by
  obtain ⟨fragments, develops⟩ := reachable
  exact (develops.extends_wellFormed (.ofFragments fragments)).1

end Reachable

end TreeQuery.Arena
