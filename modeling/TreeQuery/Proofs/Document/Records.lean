import TreeQuery.Document.Arena

/-!
# Records after a change

What the three changes of an arena do to its records: adding a detached record, adding a
child, and giving an attribute.  Each change is described by what it does to the payload,
the parent, the children and the attributes of every slot; everything else about arenas is
derived from these equations, so no later proof looks into the array of records.
-/

set_option autoImplicit false

namespace TreeQuery.Arena

variable {arena : Arena} {slot parent owner given : Nat} {payload : Payload} {name value : String}

theorem record_of_size_le (outside : arena.size ≤ slot) :
    arena.record slot = .detached (.text "") none := by
  simp only [record, Array.getD_eq_getD_getElem?]
  rw [Array.getElem?_eq_none outside]
  rfl

theorem record_push (added : Record) :
    (Arena.mk (arena.records.push added)).record slot =
      if slot = arena.size then added else arena.record slot := by
  simp only [record, size, Array.getD_eq_getD_getElem?, Array.getElem?_push]
  split <;> rfl

theorem record_modify (change : Record → Record) (inside : owner < arena.size) :
    (Arena.mk (arena.records.modify owner change)).record slot =
      if slot = owner then change (arena.record owner) else arena.record slot := by
  simp only [record, Array.getD_eq_getD_getElem?, Array.getElem?_modify]
  by_cases same : slot = owner
  · subst same
    rw [if_pos rfl, if_pos rfl, Array.getElem?_eq_getElem inside]
    rfl
  · rw [if_neg same, if_neg (Ne.symm same)]

/-- A slot without a record has no links. -/
theorem links_of_size_le (outside : arena.size ≤ slot) :
    (arena.record slot).parent = none ∧ (arena.record slot).children = [] ∧
      (arena.record slot).attributes = [] := by
  rw [record_of_size_le outside]
  exact ⟨rfl, rfl, rfl⟩

/-! ## A detached record -/

section Add

@[simp] theorem size_add (parent : Option Nat) :
    (arena.add payload parent).size = arena.size + 1 := by
  simp [add, size]

theorem payload_add (parent : Option Nat) : ((arena.add payload parent).record slot).payload =
    if slot = arena.size then payload else (arena.record slot).payload := by
  rw [add, record_push]
  split <;> rfl

theorem parent_add (parent : Option Nat) : ((arena.add payload parent).record slot).parent =
    if slot = arena.size then parent else (arena.record slot).parent := by
  rw [add, record_push]
  split <;> rfl

@[simp] theorem children_add (parent : Option Nat) :
    ((arena.add payload parent).record slot).children = (arena.record slot).children := by
  rw [add, record_push]
  split
  · subst slot
    rw [(links_of_size_le (Nat.le_refl _)).2.1]
    rfl
  · rfl

@[simp] theorem attributes_add (parent : Option Nat) :
    ((arena.add payload parent).record slot).attributes = (arena.record slot).attributes := by
  rw [add, record_push]
  split
  · subst slot
    rw [(links_of_size_le (Nat.le_refl _)).2.2]
    rfl
  · rfl

end Add

/-! ## A child -/

section AddChild

@[simp] theorem size_addChild : (arena.addChild parent payload).size = arena.size + 1 := by
  simp [addChild, add, size]

variable (inside : parent < arena.size)
include inside

theorem record_addChild : (arena.addChild parent payload).record slot =
    if slot = parent then
      { arena.record parent with children := (arena.record parent).children ++ [arena.size] }
    else (arena.add payload (some parent)).record slot := by
  have old : (arena.add payload (some parent)).record parent = arena.record parent := by
    rw [add, record_push, if_neg (Nat.ne_of_lt inside)]
  rw [addChild, record_modify _ (by rw [size_add]; omega), old]

theorem payload_addChild : ((arena.addChild parent payload).record slot).payload =
    if slot = arena.size then payload else (arena.record slot).payload := by
  rw [record_addChild inside]
  split
  · subst slot
    rw [if_neg (Nat.ne_of_lt inside)]
  · rw [payload_add]

theorem parent_addChild : ((arena.addChild parent payload).record slot).parent =
    if slot = arena.size then some parent else (arena.record slot).parent := by
  rw [record_addChild inside]
  split
  · subst slot
    rw [if_neg (Nat.ne_of_lt inside)]
  · rw [parent_add]

theorem children_addChild : ((arena.addChild parent payload).record slot).children =
    if slot = parent then (arena.record parent).children ++ [arena.size]
    else (arena.record slot).children := by
  rw [record_addChild inside]
  split
  · rfl
  · rw [children_add]

theorem attributes_addChild : ((arena.addChild parent payload).record slot).attributes =
    (arena.record slot).attributes := by
  rw [record_addChild inside]
  split
  · subst slot
    rfl
  · rw [attributes_add]

end AddChild

/-! ## An attribute that is given again -/

section ReplaceAttribute

variable (found : arena.attribute? owner name = some given)
include found

theorem size_setAttribute_of_some :
    (arena.setAttribute owner name value).size = arena.size := by
  simp [setAttribute, found, size]

variable (inside : given < arena.size)
include inside

theorem record_setAttribute_of_some : (arena.setAttribute owner name value).record slot =
    if slot = given then { arena.record given with payload := .attribute name value }
    else arena.record slot := by
  simp only [setAttribute, found]
  exact record_modify _ inside

theorem payload_setAttribute_of_some :
    ((arena.setAttribute owner name value).record slot).payload =
      if slot = given then .attribute name value else (arena.record slot).payload := by
  rw [record_setAttribute_of_some found inside]
  split <;> rfl

theorem parent_setAttribute_of_some :
    ((arena.setAttribute owner name value).record slot).parent = (arena.record slot).parent := by
  rw [record_setAttribute_of_some found inside]
  split
  · subst slot
    rfl
  · rfl

theorem children_setAttribute_of_some :
    ((arena.setAttribute owner name value).record slot).children =
      (arena.record slot).children := by
  rw [record_setAttribute_of_some found inside]
  split
  · subst slot
    rfl
  · rfl

theorem attributes_setAttribute_of_some :
    ((arena.setAttribute owner name value).record slot).attributes =
      (arena.record slot).attributes := by
  rw [record_setAttribute_of_some found inside]
  split
  · subst slot
    rfl
  · rfl

end ReplaceAttribute

/-! ## A new attribute -/

section NewAttribute

variable (missing : arena.attribute? owner name = none)
include missing

theorem size_setAttribute_of_none :
    (arena.setAttribute owner name value).size = arena.size + 1 := by
  simp [setAttribute, missing, add, size]

variable (inside : owner < arena.size)
include inside

theorem record_setAttribute_of_none : (arena.setAttribute owner name value).record slot =
    if slot = owner then
      { arena.record owner with attributes := (arena.record owner).attributes ++ [arena.size] }
    else (arena.add (.attribute name value) (some owner)).record slot := by
  have old : (arena.add (.attribute name value) (some owner)).record owner =
      arena.record owner := by
    rw [add, record_push, if_neg (Nat.ne_of_lt inside)]
  simp only [setAttribute, missing]
  rw [record_modify _ (by rw [size_add]; omega), old]

theorem payload_setAttribute_of_none :
    ((arena.setAttribute owner name value).record slot).payload =
      if slot = arena.size then .attribute name value else (arena.record slot).payload := by
  rw [record_setAttribute_of_none missing inside]
  split
  · subst slot
    rw [if_neg (Nat.ne_of_lt inside)]
  · rw [payload_add]

theorem parent_setAttribute_of_none :
    ((arena.setAttribute owner name value).record slot).parent =
      if slot = arena.size then some owner else (arena.record slot).parent := by
  rw [record_setAttribute_of_none missing inside]
  split
  · subst slot
    rw [if_neg (Nat.ne_of_lt inside)]
  · rw [parent_add]

theorem children_setAttribute_of_none :
    ((arena.setAttribute owner name value).record slot).children =
      (arena.record slot).children := by
  rw [record_setAttribute_of_none missing inside]
  split
  · subst slot
    rfl
  · rw [children_add]

theorem attributes_setAttribute_of_none :
    ((arena.setAttribute owner name value).record slot).attributes =
      if slot = owner then (arena.record owner).attributes ++ [arena.size]
      else (arena.record slot).attributes := by
  rw [record_setAttribute_of_none missing inside]
  split
  · rfl
  · rw [attributes_add]

end NewAttribute

end TreeQuery.Arena
