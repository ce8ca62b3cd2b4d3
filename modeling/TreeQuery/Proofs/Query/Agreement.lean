import TreeQuery.Proofs.Path.Locality
import TreeQuery.Proofs.Query.Evaluation

/-!
# Evaluations over libraries that agree

What an evaluation reads of nodes it reads in the arenas where they live.  So libraries that
agree on the documents of some items construct the same from them, and join them alike.
-/

set_option autoImplicit false

namespace TreeQuery

variable {read : String → Prop} {left right : Library} {items others : List Item}

/-- The homes of constructed nodes and of the nodes of some documents. -/
def Home.Of (read : String → Prop) : Home → Prop
  | .constructed => True
  | .document name => read name

theorem Home.within_root {name : String} (isRead : read name) :
    Within (Home.Of read) [⟨.document name, 0⟩] := by
  rintro _ (_ | ⟨_, ⟨⟩⟩)
  exact isRead

/-- Two libraries have the same documents under some of the names. -/
def Library.AgreeOn (read : String → Prop) (left right : Library) : Prop :=
  ∀ name, read name → right name = left name

theorem Library.AgreeOn.view (agree : left.AgreeOn read right) (constructed : Arena) :
    (left.view constructed).AgreeOn (Home.Of read) (right.view constructed) := by
  intro home inside
  cases home with
  | constructed => rfl
  | document name => rw [Library.view, Library.view, agree name inside]

namespace Evaluation

/-- What reads nothing but agreed arenas reads the same. -/
theorem observe_agree {α : Type} {look : View Home → α} (agree : left.AgreeOn read right)
    (same : ∀ {first second : View Home}, first.AgreeOn (Home.Of read) second →
      look second = look first) :
    observe right look = observe left look := by
  funext arena
  rw [observe_apply, observe_apply, same (agree.view arena)]

theorem constructElement_agree (agree : left.AgreeOn read right) (name : String)
    (inside : Within (Home.Of read) items) :
    constructElement right name items = constructElement left name items := by
  funext arena
  rw [constructElement_apply, constructElement_apply,
    flatMap_content_agree (agree.view arena) inside]

theorem documentPath_apply {document : Arena} {path : DocumentPath}
    (found : left path.document = .ok document) (arena : Arena) :
    documentPath left path arena =
      .ok (path.path.selectAlong (left.view arena) path.axis [⟨.document path.document, 0⟩])
        arena := by
  rw [documentPath, documentNode, found]
  rfl

theorem documentPath_error {failure : Failure} {path : DocumentPath}
    (notFound : left path.document = .error failure) (arena : Arena) :
    documentPath left path arena = .error failure arena := by
  rw [documentPath, documentNode, notFound]
  rfl

/-- A document path reaches nodes of its document, which depend on no other. -/
theorem documentPath_agree (agree : left.AgreeOn read right) {path : DocumentPath}
    (isRead : read path.document) :
    documentPath right path = documentPath left path := by
  funext arena
  have same := agree path.document isRead
  cases found : left path.document with
  | error failure => rw [documentPath_error found, documentPath_error (same.trans found)]
  | ok document =>
      rw [documentPath_apply found, documentPath_apply (same.trans found),
        (path.path.selectAlong_agree (agree.view arena) path.axis
          (Home.within_root isRead)).1]

theorem joinTuple_agree (agree : left.AgreeOn read right) (inside : Within (Home.Of read) items)
    (also : Within (Home.Of read) others) :
    joinTuple right items others = joinTuple left items others := by
  funext positions
  rw [joinTuple, joinTuple]
  cases found : items[positions.1]? with
  | none => rfl
  | some tuple =>
      cases partner : others[positions.2]? with
      | none => rfl
      | some other =>
          have tupleInside := inside tuple (List.mem_of_getElem? found)
          have otherInside := also other (List.mem_of_getElem? partner)
          funext arena
          have view := agree.view arena
          have fields : Within (Home.Of read)
              (tuple.children (left.view arena) ++ other.children (left.view arena)) :=
            (Within.of_home tupleInside tuple.home_of_mem_children).append
              (Within.of_home otherInside other.home_of_mem_children)
          dsimp only
          rw [bind_apply, bind_apply, observe_apply, observe_apply,
            tuple.children_agree view tupleInside, other.children_agree view otherInside]
          dsimp only
          rw [constructElement_agree agree tupleTag fields]

theorem joinTuples_agree (agree : left.AgreeOn read right) (order : KeyOrder)
    (inside : Within (Home.Of read) items) (also : Within (Home.Of read) others)
    (leftTags rightTags : List String) :
    joinTuples right order items others leftTags rightTags =
      joinTuples left order items others leftTags rightTags := by
  rw [joinTuples, joinTuples, joinTuple_agree agree inside also, observe_agree agree fun view =>
    matchTuples_agree view order inside also leftTags rightTags]

/-! ## What is joined is constructed -/

theorem home_of_joinTuple {library : Library} {before after : Arena} {positions : Nat × Nat}
    {found : List Item}
    (run : joinTuple library items others positions before = .ok found after) :
    ∀ item ∈ found, item.home = .constructed := by
  rw [joinTuple] at run
  cases first : items[positions.1]? with
  | none =>
      rw [first] at run
      cases run
      exact List.forall_mem_nil _
  | some tuple =>
      cases second : others[positions.2]? with
      | none =>
          rw [first, second] at run
          cases run
          exact List.forall_mem_nil _
      | some other =>
          rw [first, second] at run
          cases run
          rintro _ (_ | ⟨_, ⟨⟩⟩)
          rfl

theorem home_of_collect_joinTuple {library : Library} (pairs : List (Nat × Nat)) :
    ∀ {before after : Arena} {found : List Item},
      collect (joinTuple library items others) pairs before = .ok found after →
        ∀ item ∈ found, item.home = .constructed := by
  induction pairs with
  | nil =>
      intro before after found run
      rw [collect, pure_apply] at run
      cases run
      exact List.forall_mem_nil _
  | cons pair rest ih =>
      intro before after found run item member
      rw [collect] at run
      obtain ⟨first, _, firstRun, run⟩ := of_bind_ok run
      obtain ⟨more, _, restRun, run⟩ := of_bind_ok run
      rw [pure_apply] at run
      cases run
      rcases List.mem_append.mp member with early | late
      · exact home_of_joinTuple firstRun item early
      · exact ih restRun item late

theorem home_of_joinTuples {library : Library} {order : KeyOrder} {leftTags rightTags : List String}
    {before after : Arena} {found : List Item}
    (run : joinTuples library order items others leftTags rightTags before = .ok found after) :
    ∀ item ∈ found, item.home = .constructed := by
  rw [joinTuples] at run
  obtain ⟨pairs, _, _, run⟩ := of_bind_ok run
  exact home_of_collect_joinTuple pairs run

end Evaluation

end TreeQuery
