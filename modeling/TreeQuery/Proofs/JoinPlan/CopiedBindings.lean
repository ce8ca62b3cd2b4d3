import TreeQuery.Proofs.JoinPlan.Soundness

/-!
# Results that do not notice copies

A result that has been checked has the same outcome whether its variables stand for nodes or for
deep copies of them (`Query.evaluate_copiedBindings`).  A copy is another node, has another parent
and other siblings; and while of two nodes one can be inside the other, or both can be one, their
copies are apart.  The check excludes what would notice: steps to parents, in filters too, and steps
off a sequence, which would meet a node twice that is copied twice.  What is left reads each copy by
itself, and there a path reaches the copies of what it reaches from the original, each as often.

Any child of a constructed element with the fragment of a node counts as its copy.  Such copies are
what constructing an element around the node makes (`Evaluation.constructElement_holdsCopy`).
-/

set_option autoImplicit false

namespace TreeQuery

open Evaluation JoinPlan

variable {library : Library}

/-! ## Copies -/

/-- A deep copy of a node that is a child of a constructed element. -/
structure Node.IsHeldCopy (view : View Home) (copy node : Item) : Prop where
  held : ∃ holder : Item, holder.home = .constructed ∧ holder.kind view = .element ∧
    copy ∈ holder.children view
  fragment : copy.fragment view = node.fragment view

/-- A copy of an element or a text is one as well. -/
theorem Node.IsHeldCopy.alike {view : View Home} {copy node : Item} (formed : view.WellFormed)
    (isCopy : copy.IsHeldCopy view node) (content : node.IsContent view)
    (inside : node.Exists view) : Node.Alike view view node copy where
  exists_left := inside
  exists_right := by
    obtain ⟨holder, _, _, listed⟩ := isCopy.held
    exact exists_of_mem_children formed listed
  kind := by
    obtain ⟨holder, _, _, listed⟩ := isCopy.held
    rw [kind_of_mem_children formed listed, isCopy.fragment]
    exact (formed node.home).kind_fragment content.kind_ne
  fragment := isCopy.fragment

/-- Constructing an element around a node makes a copy of it. -/
theorem Evaluation.constructElement_holdsCopy (documents : library.WellFormed) {before : Arena}
    (formed : before.WellFormed) (name : String) {items : List Item} {node : Item}
    (listed : node ∈ items) (content : node.IsContent (library.view before))
    (inside : node.Exists (library.view before)) :
    ∃ holder after, constructElement library name items before = .ok holder after ∧
      ∃ copy ∈ holder.children (library.view after), copy.IsHeldCopy (library.view after) node := by
  obtain ⟨holder, after, run, isNew, reads⟩ :=
    constructElement_new documents formed name items
  have still := documents.view isNew.formed
  have extend := documents.extends formed isNew.formed isNew.extend
  have contributes : node.fragment (library.view before) ∈
      Fragment.childrenIn (items.flatMap (·.content (library.view before))) := by
    rw [Fragment.childrenIn, List.mem_filter, content.isAttribute (documents.view formed)]
    refine ⟨List.mem_flatMap.mpr ⟨node, listed, ?_⟩, rfl⟩
    rw [Node.content_of_kind content.kind_ne]
    exact List.mem_cons_self
  have fragments := Node.map_fragment_children still holder
  rw [reads.fragment, Fragment.children] at fragments
  rw [← fragments, List.mem_map] at contributes
  obtain ⟨copy, copyListed, same⟩ := contributes
  refine ⟨holder, after, run, copy, copyListed, ⟨holder, ?_, ?_, copyListed⟩, ?_⟩
  · rw [isNew.eq_next]
  · rw [Node.kind, reads.payload_eq still, Payload.kind]
  · rw [same, Node.fragment_extend inside extend]

/-! ## Copied bindings -/

/-- A scope with the single elements or texts that some variables stand for replaced by copies, and
every other variable as it is. -/
structure Scope.CopiesBindings (view : View Home) (names : List String) (scope copied : Scope) :
    Prop where
  replaced : ∀ name ∈ names, ∃ node copy : Item, scope.lookup name = some [node] ∧
    node.IsContent view ∧ copied.lookup name = some [copy] ∧ copy.IsHeldCopy view node
  kept : ∀ name ∉ names, copied.lookup name = scope.lookup name

/-- What a variable stands for in the two scopes goes together in every larger world: a node and its
copy are roots of a matching of what is inside them, and other nodes are matched by the world. -/
theorem Scope.CopiesBindings.reference_simulates {world later : World library}
    {names : List String} {scope copied : Scope}
    (copies : scope.CopiesBindings world.viewRight names copied)
    (existing : scope.Exist world.viewLeft) (extend : world.viewLeft.Extends world.viewRight)
    (shared : ∀ {node : Item}, node.Exists world.viewLeft → world.Same node node)
    (grows : world.Grows later) (name : String) :
    Simulates later ((Query.reference name).evaluate library scope)
      ((Query.reference name).evaluate library copied)
      (resultLevel names (.reference name)).Holds := by
  rw [resultLevel, Query.evaluate, Query.evaluate]
  by_cases listed : names.contains name = true
  · obtain ⟨node, copy, found, content, foundCopy, isCopy⟩ :=
      copies.replaced name (List.contains_iff_mem.mp listed)
    have inside := existing name [node] found node List.mem_cons_self
    have same : Node.Alike world.viewLeft world.viewRight node node :=
      (Node.Alike.refl inside).extend (.refl world.viewLeft_wellFormed) extend
    have alike := (same.trans (isCopy.alike world.viewRight_wellFormed content
      same.exists_right)).extend grows.viewLeft grows.viewRight
    rw [if_pos listed, found, foundCopy]
    exact .pure ⟨Inside later.viewLeft later.viewRight node copy,
      Inside.matching later.viewLeft_wellFormed later.viewRight_wellFormed alike,
      .cons .top .nil⟩
  · rw [if_neg listed, copies.kept name fun member => listed (List.contains_iff_mem.mpr member)]
    cases found : scope.lookup name with
    | none => exact .throw _
    | some items =>
        exact .pure (List.forall₂_same.mpr fun node member =>
          grows.same (shared (existing name items found node member)))

theorem JoinPlan.keepsForm_id : KeepsForm id :=
  ⟨fun _ => rfl, fun _ _ => rfl, fun _ _ => rfl, fun _ _ _ => rfl⟩

/-- **A checked result does not notice copies.**  In any scope of existing nodes, any variables that
stand for single elements or texts can be bound to deep copies of these instead, each a child of a
constructed element: the outcome is the same failure, or a sequence whose items have the same kinds,
value keys and string values, one by one. -/
theorem Query.evaluate_copiedBindings (library : Library) (documents : library.Reachable)
    (result : Query) (checked : checkResult result = .ok ()) (before later : Arena)
    (reachable : before.Reachable) (develops : before.Develops later) (scope copied : Scope)
    (existing : scope.Exist (library.view before)) (names : List String)
    (copies : scope.CopiesBindings (library.view later) names copied) :
    AlikeOutcomes library (result.evaluate library scope before)
      (result.evaluate library copied later) := by
  have formed := reachable.wellFormed
  obtain ⟨still, extend⟩ := develops.extends_wellFormed formed
  let start := World.identity documents.wellFormed formed
  let world := start.extend formed still (.refl before) extend
  have existLeft : scope.Exist world.viewLeft := existing
  have copiesRight : scope.CopiesBindings world.viewRight names copied := copies
  have simulates : Simulates world (result.evaluate library scope)
      (result.evaluate library copied) (resultLevel names result).Holds :=
    result_simulates keepsForm_id result checked fun name _ _ grows =>
      copiesRight.reference_simulates existLeft
        (documents.wellFormed.extends formed still extend) (fun inside => ⟨inside, rfl⟩) grows name
  exact alikeOutcomes_of_simulates simulates (resultLevel_ne_gathered _ _)

/-- The element `<b>t</b>`. -/
def innerElement : Fragment := .element "b" [] [.text "t"]

/-- An arena with the element `<r><a><b>t</b></a></r>`. -/
def nestedElements : Arena := Arena.empty.createElement "r" [.element "a" [] [innerElement]]

/-- The same with a copy of `a` and a copy of its `b` in elements of their own. -/
def copiesApart : Arena :=
  (nestedElements.createElement "f" [.element "a" [] [innerElement]]).createElement "g"
    [innerElement]

/-- The result `($x/b[. is .], <e>{$y, $x//b}</e>)` over an element and one inside it, and over copies
of the two that are apart. -/
theorem Query.evaluate_copiedBindings_overlapping :
    let library : Library := fun name => .error (.unavailable name .unknown)
    let result : Query :=
      .pair
        (.step (.reference "x") .child (.filtered (.tag "b") (.identityEq .current .current)))
        (.element "e" (.pair (.reference "y")
          (.step (.reference "x") .descendantOrSelf (.tag "b"))))
    let scope : Scope := [("x", [⟨.constructed, 2⟩]), ("y", [⟨.constructed, 3⟩])]
    let copied : Scope := [("x", [⟨.constructed, 6⟩]), ("y", [⟨.constructed, 10⟩])]
    AlikeOutcomes library (result.evaluate library scope nestedElements)
      (result.evaluate library copied copiesApart) := by
  intro library result scope copied
  have documents : library.Reachable := by
    intro name document found
    simp [library] at found
  have existing : scope.Exist (library.view nestedElements) :=
    (Scope.Exist.nil.cons "y" (by decide)).cons "x" (by decide)
  have outer : Node.IsHeldCopy (library.view copiesApart) ⟨.constructed, 6⟩ ⟨.constructed, 2⟩ :=
    ⟨⟨⟨.constructed, 5⟩, rfl, by decide +kernel, by decide +kernel⟩, by cbv⟩
  have inner : Node.IsHeldCopy (library.view copiesApart) ⟨.constructed, 10⟩ ⟨.constructed, 3⟩ :=
    ⟨⟨⟨.constructed, 9⟩, rfl, by decide +kernel, by decide +kernel⟩, by cbv⟩
  have copies : scope.CopiesBindings (library.view copiesApart) ["x", "y"] copied := by
    constructor
    · intro name listed
      rcases List.mem_pair.mp listed with rfl | rfl
      · exact ⟨_, _, rfl, .inl (by decide +kernel), rfl, outer⟩
      · exact ⟨_, _, rfl, .inl (by decide +kernel), rfl, inner⟩
    · intro name absent
      simp only [List.mem_cons, List.not_mem_nil, or_false, not_or] at absent
      simp only [scope, copied, List.lookup_cons, beq_false_of_ne absent.1,
        beq_false_of_ne absent.2]
  exact Query.evaluate_copiedBindings library documents result rfl nestedElements copiesApart
    (Arena.Reachable.empty.develops (.createElement _ _ .refl))
    (.createElement _ _ (.createElement _ _ .refl)) scope copied existing ["x", "y"] copies

end TreeQuery
