import TreeQuery.Proofs.Node.Alike
import TreeQuery.Query.Evaluation

/-!
# Runs of evaluations

What the steps of an evaluation do to the arena of constructed nodes.  Reading leaves it
alone; constructing a text or an element adds to it and yields the node in the next free
slot.  So the arena only ever grows, and the nodes of documents and all nodes constructed
before keep what they say.

The documents of a library and the arena of an evaluation are reachable: they have come
about by building documents and constructing nodes.
-/

set_option autoImplicit false

namespace TreeQuery

variable {α β : Type} {library : Library} {arena before middle after : Arena}

/-! ## Libraries -/

/-- Every document of a library has come about by building it. -/
def Library.Reachable (library : Library) : Prop :=
  ∀ (name : String) (arena : Arena), library name = .ok arena → arena.Reachable

/-- Every document of a library is well formed. -/
def Library.WellFormed (library : Library) : Prop :=
  ∀ (name : String) (arena : Arena), library name = .ok arena → arena.WellFormed

theorem Library.Reachable.wellFormed (documents : library.Reachable) : library.WellFormed :=
  fun name arena found => (documents name arena found).wellFormed

theorem Library.WellFormed.view (documents : library.WellFormed) (formed : arena.WellFormed) :
    (library.view arena).WellFormed := by
  intro home
  cases home with
  | constructed => exact formed
  | document name =>
      rw [Library.view]
      cases found : library name with
      | ok document => exact documents name document found
      | error failure => exact .empty

/-- Constructing nodes does not touch the documents. -/
theorem Library.WellFormed.extends (documents : library.WellFormed)
    (formed : before.WellFormed) (still : after.WellFormed) (extend : before.Extends after) :
    (library.view before).Extends (library.view after) where
  formed := documents.view formed
  still := documents.view still
  arena := by
    intro home
    cases home with
    | constructed => exact extend
    | document name => exact .refl _

namespace Evaluation

/-! ## Steps -/

theorem pure_apply (value : α) : (pure value : Evaluation α) arena = .ok value arena := rfl

theorem bind_apply (evaluation : Evaluation α) (next : α → Evaluation β) :
    (evaluation >>= next) arena =
      match evaluation arena with
      | .ok value later => next value later
      | .error failure later => .error failure later := by
  simp only [bind, EStateM.bind]
  cases evaluation arena <;> rfl

theorem bind_ok {evaluation : Evaluation α} {value : α} (run : evaluation before = .ok value after)
    (next : α → Evaluation β) : (evaluation >>= next) before = next value after := by
  rw [bind_apply, run]

theorem bind_error {evaluation : Evaluation α} {failure : Failure}
    (run : evaluation before = .error failure after) (next : α → Evaluation β) :
    (evaluation >>= next) before = .error failure after := by
  rw [bind_apply, run]

/-- The parts of an evaluation that ends with a value. -/
theorem of_bind_ok {evaluation : Evaluation α} {next : α → Evaluation β} {result : β}
    (run : (evaluation >>= next) before = .ok result after) : ∃ value middle,
      evaluation before = .ok value middle ∧ next value middle = .ok result after := by
  cases ran : evaluation before with
  | ok value middle => exact ⟨value, middle, rfl, (bind_ok ran next).symm.trans run⟩
  | error failure middle => exact nomatch (bind_error ran next).symm.trans run

theorem observe_apply (look : View Home → α) :
    observe library look arena = .ok (look (library.view arena)) arena := rfl

theorem constructText_apply (value : String) :
    constructText value arena = .ok ⟨.constructed, arena.size⟩ (arena.createText value) := rfl

theorem constructElement_apply (name : String) (items : List Item) :
    constructElement library name items arena =
      .ok ⟨.constructed, arena.size⟩
        (arena.createElement name (items.flatMap (·.content (library.view arena)))) := rfl

/-! ## New nodes -/

theorem settled_contents (documents : library.WellFormed) (formed : arena.WellFormed)
    (items : List Item) :
    ∀ fragment ∈ items.flatMap (·.content (library.view arena)), fragment.Settled := by
  intro fragment member
  obtain ⟨item, _, member⟩ := List.mem_flatMap.mp member
  exact ((documents.view formed) item.home).settled_content item.slot fragment member

/-- A node has been constructed last: it is in the next free slot and has no parent. -/
structure IsNew (library : Library) (before after : Arena) (item : Item) : Prop where
  formed : after.WellFormed
  extend : before.Extends after
  eq_next : item = ⟨.constructed, before.size⟩
  parent? : item.parent? (library.view after) = none

/-- A node in the next free slot has no parent, because old nodes list old nodes. -/
theorem parent?_next (formed : before.WellFormed) (still : after.WellFormed)
    (extend : before.Extends after) : (after.record before.size).parent = none := by
  cases linked : (after.record before.size).parent with
  | none => rfl
  | some parent =>
      rcases still.listed linked with listed | listed
      · have above := (still.child_lt listed).1
        rw [extend.record_eq above] at listed
        exact absurd (formed.child_lt listed).2 (Nat.lt_irrefl _)
      · have above := (still.attribute_lt listed).1
        rw [extend.record_eq above] at listed
        exact absurd (formed.attribute_lt listed).2 (Nat.lt_irrefl _)

/-- **A new element reads as its name and its content.** -/
theorem constructElement_new (documents : library.WellFormed) (formed : before.WellFormed)
    (name : String) (items : List Item) :
    ∃ item after, constructElement library name items before = .ok item after ∧
      IsNew library before after item ∧
      item.Reads (library.view after)
        (.element name
          ((Fragment.attributesIn (items.flatMap (·.content (library.view before)))).foldl
            Fragment.give [])
          (Fragment.childrenIn (items.flatMap (·.content (library.view before))))) := by
  have still := formed.createElement name (items.flatMap (·.content (library.view before)))
  have extend := Arena.createElement_extends formed name
    (items.flatMap (·.content (library.view before)))
  have payload := Arena.payload_createElement formed name
    (items.flatMap (·.content (library.view before)))
  have inside : before.size <
      (before.createElement name (items.flatMap (·.content (library.view before)))).size := by
    refine Nat.lt_of_not_le fun outside => ?_
    rw [Arena.record_of_size_le outside] at payload
    exact Payload.noConfusion payload
  refine ⟨_, _, constructElement_apply name items, ⟨still, extend, rfl, ?_⟩, inside, ?_, ?_⟩
  · exact congrArg (Option.map _) (parent?_next formed still extend)
  · intro kind
    rw [Node.kind, Node.payload] at kind
    exact Kind.noConfusion ((congrArg Payload.kind payload).symm.trans kind)
  · exact formed.fragment_createElement name (settled_contents documents formed items)

theorem constructText_new (formed : before.WellFormed) (value : String) :
    ∃ item after, constructText value before = .ok item after ∧
      IsNew library before after item ∧
      item.Reads (library.view after) (.text value) := by
  have still := formed.createText value
  have extend : before.Extends (before.createText value) := Arena.createText_extends value
  have payload : ((before.createText value).record before.size).payload = .text value := by
    rw [Arena.createText, Arena.payload_add, if_pos rfl]
  refine ⟨_, _, constructText_apply value, ⟨still, extend, rfl, ?_⟩, ?_, ?_, ?_⟩
  · exact congrArg (Option.map _) (parent?_next formed still extend)
  · show before.size < (before.createText value).size
    rw [Arena.createText, Arena.size_add]
    exact Nat.lt_succ_self _
  · intro kind
    rw [Node.kind, Node.payload] at kind
    exact Kind.noConfusion ((congrArg Payload.kind payload).symm.trans kind)
  · exact Arena.fragment_createText formed value

end Evaluation

end TreeQuery
