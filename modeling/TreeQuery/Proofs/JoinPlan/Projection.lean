import TreeQuery.Proofs.JoinPlan.Results

/-!
# Variables that can be projected

A tuple of a join has a field for each variable, and a projection takes the node of a variable
back out of its field.  Constructing unwraps documents and makes attributes of attributes, so a
document or an attribute would not come back.  The check of sources looks at last steps only, and
that is enough: whatever the path does before, its last steps go to children, wherever its context
comes from (`JoinPlan.projectable_of_reachesContent`).

A child is an element or a text.  A new element around one such node holds its fragment and nothing
else (`Evaluation.constructElement_around`), and an element that holds one fragment has one child,
which reads as that fragment (`Node.Reads.exists_children_eq`).  A projection meets both twice.
-/

set_option autoImplicit false

namespace TreeQuery

open Evaluation JoinPlan

variable {library : Library}

/-! ## Elements around one node -/

/-- A new element around an element or a text holds the fragment of that node and nothing else. -/
theorem Evaluation.constructElement_around (documents : library.WellFormed) {before : Arena}
    (formed : before.WellFormed) (name : String) {node : Item}
    (content : node.IsContent (library.view before)) :
    ∃ holder after, constructElement library name [node] before = .ok holder after ∧
      IsNew library before after holder ∧
      holder.Reads (library.view after)
        (.element name [] [node.fragment (library.view before)]) := by
  obtain ⟨holder, after, run, isNew, reads⟩ :=
    constructElement_new documents formed name [node]
  have below := content.isAttribute (documents.view formed)
  rw [List.flatMap_singleton, Node.content_of_kind content.kind_ne] at reads
  generalize node.fragment (library.view before) = fragment at below reads
  refine ⟨holder, after, run, isNew, ?_⟩
  cases fragment with
  | element _ _ _ | text _ => exact reads
  | «attribute» _ _ => cases below

namespace Node

variable {Home : Type} {view : View Home}

/-- An element that holds one fragment has one child, which reads as that fragment. -/
theorem Reads.exists_children_eq {holder : Node Home} {name : String}
    {attributes : List (String × String)} {fragment : Fragment}
    (reads : holder.Reads view (.element name attributes [fragment])) (formed : view.WellFormed) :
    ∃ child, holder.children view = [child] ∧ child.Reads view fragment := by
  have fragments : (holder.children view).map (·.fragment view) = [fragment] := by
    rw [map_fragment_children formed, reads.fragment, Fragment.children]
  obtain ⟨child, children, same⟩ := List.map_eq_singleton_iff.mp fragments
  have listed : child ∈ holder.children view := children ▸ List.mem_singleton_self child
  exact ⟨child, children, exists_of_mem_children formed listed,
    (isContent_of_mem_children formed listed).kind_ne, same⟩

/-- An element of a name is found by its name. -/
theorem Reads.isElementNamed {node : Node Home} {name : String}
    {attributes : List (String × String)} {children : List Fragment}
    (reads : node.Reads view (.element name attributes children)) (formed : view.WellFormed) :
    node.isElementNamed view name = true := by
  rw [Node.isElementNamed, reads.payload_eq formed]
  simp

end Node

/-! ## Out of a field -/

namespace JoinPlan

/-- Out of a tuple with one field, the path to that field leads to the only node in it. -/
theorem exists_selectAlong_fieldPath {view : View Home} (formed : view.WellFormed) {holder : Item}
    {tuple name : String} {fragment : Fragment}
    (reads : holder.Reads view (.element tuple [] [.element name [] [fragment]])) :
    ∃ copy, (fieldPath name).selectAlong view .child [holder] = [copy] ∧
      copy.Reads view fragment := by
  obtain ⟨field, fields, readsField⟩ := reads.exists_children_eq formed
  obtain ⟨copy, held, readsCopy⟩ := readsField.exists_children_eq formed
  have named : (holder.children view).filter (·.isElementNamed view name) = [field] := by
    rw [fields, List.filter_singleton, readsField.isElementNamed formed, cond_true]
  exact ⟨copy, selectAlong_fieldPath_of_single named held, readsCopy⟩

/-- A node comes back from a tuple.  The field can be constructed around the node and the tuple
around the field, which then has nothing else in it; and from then on, wherever the variable stands
for the tuple, its path to the field leads to one node, with the kind and the fragment of the
first. -/
def ComesBack (library : Library) (arena : Arena) (node : Item) (tuple name : String) : Prop :=
  ∃ field middle holder after,
    constructElement library name [node] arena = .ok field middle ∧
    constructElement library tuple [field] middle = .ok holder after ∧
    holder.fragment (library.view after) =
      .element tuple [] [.element name [] [node.fragment (library.view arena)]] ∧
    ∀ later, after.Develops later → ∀ scope : Scope, scope.lookup tuple = some [holder] →
      ∃ copy, (Query.step (.reference tuple) .child (fieldPath name)).evaluate library scope later =
          .ok [copy] later ∧
        copy.kind (library.view later) = node.kind (library.view arena) ∧
        copy.fragment (library.view later) = node.fragment (library.view arena)

/-- Elements and texts come back. -/
theorem comesBack_of_isContent (documents : library.WellFormed) {arena : Arena}
    (formed : arena.WellFormed) {node : Item} (content : node.IsContent (library.view arena))
    (tuple name : String) : ComesBack library arena node tuple name := by
  obtain ⟨field, middle, runField, newField, readsField⟩ :=
    constructElement_around documents formed name content
  have fieldContent : field.IsContent (library.view middle) :=
    .inl (readsField.kind_eq (documents.view newField.formed))
  obtain ⟨holder, after, runHolder, newHolder, readsHolder⟩ :=
    constructElement_around documents newField.formed tuple fieldContent
  rw [readsField.fragment] at readsHolder
  refine ⟨field, middle, holder, after, runField, runHolder, readsHolder.fragment,
    fun later develops scope bound => ?_⟩
  obtain ⟨still, extend⟩ := develops.extends_wellFormed newHolder.formed
  have readsLater := readsHolder.extend (documents.extends newHolder.formed still extend)
  obtain ⟨copy, selected, readsCopy⟩ :=
    exists_selectAlong_fieldPath (documents.view still) readsLater
  refine ⟨copy, ?_, ?_, readsCopy.fragment⟩
  · rw [Query.evaluate, Query.evaluate, bound]
    exact congrArg (EStateM.Result.ok · later) selected
  · rw [readsCopy.kind_eq (documents.view still)]
    exact ((documents.view formed) node.home).kind_fragment content.kind_ne

/-! ## What checked paths reach -/

/-- **What a checked source can bind, a projection gives back.**  A path whose last steps are
allowed leads, along either axis and from any nodes of reachable arenas, to elements and texts that
have a parent; and each of them comes back from a tuple, whatever the tuple and the field are
called. -/
theorem projectable_of_reachesContent {path : Path} (allowed : reachesContent path = true) :
    (∀ {Home : Type} [DecidableEq Home] (view : View Home), (∀ home, (view home).Reachable) →
      ∀ axis context, ∀ node ∈ path.selectAlong view axis context,
        (node.kind view = .element ∨ node.kind view = .text) ∧
          ∃ parent, node.parent? view = some parent) ∧
    ∀ library : Library, library.Reachable → ∀ arena : Arena, arena.Reachable →
      ∀ axis context, ∀ node ∈ path.selectAlong (library.view arena) axis context,
        ∀ tuple name, ComesBack library arena node tuple name := by
  refine ⟨fun view reachable axis context node selected => ?_,
    fun library documents arena reachable axis context node selected tuple name => ?_⟩
  · have formed : view.WellFormed := fun home => (reachable home).wellFormed
    refine ⟨isContent_of_mem_selectAlong formed allowed node selected, ?_⟩
    rw [Path.selectAlong, List.mem_eraseDups] at selected
    obtain ⟨parent, listed⟩ := exists_parent_of_mem_select path allowed node selected
    exact ⟨parent, (Node.parent?_of_mem_children formed listed).1⟩
  · have formed := documents.wellFormed.view reachable.wellFormed
    exact comesBack_of_isContent documents.wellFormed reachable.wellFormed
      (isContent_of_mem_selectAlong formed allowed node selected) tuple name

/-- An arena with the element `<r><a k="v">t</a>u</r>`. -/
def mixedContent : Arena :=
  Arena.empty.createElement "r" [.element "a" [("k", "v")] [.text "t"], .text "u"]

/-- From the attribute `k`, the path `../../(a[text()], text())` leads to the element around the
attribute and to the text after it, and both come back from fields. -/
theorem projectable_of_reachesContent_mixedContent :
    let library : Library := fun name => .error (.unavailable name .unknown)
    let path : Path := .step .parent .child (.step .parent .child
      (.parenthesized (.pair (.filtered (.tag "a") (.path .text)) .text)))
    path.selectAlong (library.view mixedContent) .child [⟨.constructed, 3⟩] =
        [⟨.constructed, 2⟩, ⟨.constructed, 5⟩] ∧
      ComesBack library mixedContent ⟨.constructed, 2⟩ "tuple" "x" ∧
      ComesBack library mixedContent ⟨.constructed, 5⟩ "tuple" "x" := by
  intro library path
  have documents : library.Reachable := by
    intro name document found
    simp [library] at found
  have selected : path.selectAlong (library.view mixedContent) .child [⟨.constructed, 3⟩] =
      [⟨.constructed, 2⟩, ⟨.constructed, 5⟩] := by decide +kernel
  have allowed : reachesContent path = true := rfl
  have comeBack := (projectable_of_reachesContent allowed).2 library documents mixedContent
    (Arena.Reachable.empty.develops (.createElement _ _ .refl)) .child [⟨.constructed, 3⟩]
  rw [selected] at comeBack
  exact ⟨selected, comeBack _ List.mem_cons_self _ _,
    comeBack _ (List.mem_cons_of_mem _ List.mem_cons_self) _ _⟩

end JoinPlan

end TreeQuery
