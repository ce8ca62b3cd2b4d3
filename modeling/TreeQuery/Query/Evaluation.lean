import TreeQuery.Document.Library
import TreeQuery.Path.Selection
import TreeQuery.Query.Basic
import TreeQuery.Query.Join

/-!
# Evaluating queries

An evaluation reads documents from a library and constructs new nodes in an arena of its
own, which is its only state; it ends with a sequence of nodes or with a failure, and
the arena is kept in both cases.  Documents are named, and a name means the same
document throughout, so a node of a document is named by the document and its slot.

Clauses bind variables one after the other: each source is evaluated with the earlier
variables in scope, and a `for` clause visits the tuples of its items in lexicographic
order, evaluating the later sources anew for each item of an earlier one.  A stand-alone
`let` evaluates all its sources in the scope around it.  What is constructed is a deep
copy of its content.
-/

set_option autoImplicit false

namespace TreeQuery

/-- Where the nodes of an evaluation live: among those it constructs, or in a document. -/
inductive Home where
  | constructed
  | document (name : String)
  deriving DecidableEq

/-- A node of an evaluation. -/
abbrev Item : Type := Node Home

/-- The arenas of an evaluation with the given constructed nodes.  A document that cannot
be read has no nodes. -/
def Library.view (library : Library) (constructed : Arena) : View Home
  | .constructed => constructed
  | .document name =>
      match library name with
      | .ok arena => arena
      | .error _ => .empty

/-- The items that variables stand for, innermost binding first. -/
abbrev Scope : Type := List (String × List Item)

/-- A computation that constructs nodes and can fail; failing keeps what was
constructed. -/
abbrev Evaluation : Type → Type := EStateM Failure Arena

namespace Evaluation

variable {α β : Type}

/-- Visits the members of a list in order and collects what the visits yield. -/
def collect (visit : α → Evaluation (List β)) : List α → Evaluation (List β)
  | [] => return []
  | item :: rest => do
      let found ← visit item
      let others ← collect visit rest
      return found ++ others

/-- Visits the members of a list in order until a visit says yes. -/
def any (visit : α → Evaluation Bool) : List α → Evaluation Bool
  | [] => return false
  | item :: rest => do
      if ← visit item then return true
      any visit rest

/-- Reads through the arenas of the evaluation as they are now. -/
def observe (library : Library) (look : View Home → α) : Evaluation α := do
  return look (library.view (← get))

/-- Constructs a text. -/
def constructText (value : String) : Evaluation Item := do
  let arena ← get
  let slot := arena.size
  set (arena.createText value)
  return ⟨.constructed, slot⟩

/-- Constructs an element around copies of items. -/
def constructElement (library : Library) (name : String) (items : List Item) :
    Evaluation Item := do
  let content ← observe library fun view => items.flatMap (·.content view)
  let arena ← get
  let slot := arena.size
  set (arena.createElement name content)
  return ⟨.constructed, slot⟩

/-- The document node of a named document. -/
def documentNode (library : Library) (name : String) : Evaluation Item := do
  match library name with
  | .ok _ => return ⟨.document name, 0⟩
  | .error failure => throw failure

/-- Evaluates a document path. -/
def documentPath (library : Library) (path : DocumentPath) : Evaluation (List Item) := do
  let root ← documentNode library path.document
  observe library fun view => path.path.selectAlong view path.axis [root]

/-- The name of the elements that a join constructs. -/
def tupleTag : String := "tuple"

/-- The tuples at two positions joined: one new tuple with the fields of both. -/
def joinTuple (library : Library) (left right : List Item) (positions : Nat × Nat) :
    Evaluation (List Item) := do
  match left[positions.1]?, right[positions.2]? with
  | some tuple, some other =>
      let fields ← observe library fun view => tuple.children view ++ other.children view
      return [← constructElement library tupleTag fields]
  | _, _ => return []

/-- Joins two sequences of tuples; every pair that matches is joined. -/
def joinTuples (library : Library) (order : KeyOrder) (left right : List Item)
    (leftTags rightTags : List String) : Evaluation (List Item) := do
  let pairs ← observe library fun view => matchTuples view order left right leftTags rightTags
  collect (joinTuple library left right) pairs

/-- Joins what two evaluations yield, if the tags come in pairs. -/
def join (library : Library) (order : KeyOrder) (left right : Evaluation (List Item))
    (leftTags rightTags : List String) : Evaluation (List Item) :=
  if leftTags.length = rightTags.length then do
    let items ← left
    let others ← right
    joinTuples library order items others leftTags rightTags
  else throw (.joinArity leftTags.length rightTags.length)

end Evaluation

open Evaluation

/-- The text that a query is, if it is a constant in parentheses or without. -/
def Query.constant? (query : Query) : Option String :=
  match query.unparenthesized with
  | .constant value => some value
  | _ => none

mutual
/-- The value of a query in a scope. -/
def Query.evaluate (library : Library) (query : Query) (scope : Scope) :
    Evaluation (List Item) :=
  match query with
  | .reference name =>
      match scope.lookup name with
      | some items => return items
      | none => throw (.unboundVariable name)
  | .constant value => do return [← constructText value]
  | .document path => documentPath library path
  | .parenthesized inner => inner.evaluate library scope
  | .pair left right => do
      let items ← left.evaluate library scope
      let others ← right.evaluate library scope
      return items ++ others
  | .step base axis path => do
      let context ← base.evaluate library scope
      observe library fun view => path.selectAlong view axis context
  | .element name body => do
      let items ← body.evaluate library scope
      return [← constructElement library name items]
  | .join left right leftTags rightTags =>
      join library .asMet (left.evaluate library scope) (right.evaluate library scope) leftTags
        rightTags
  | .letIn bindings body => do
      let inner ← Binding.bindApart library bindings scope scope
      body.evaluate library inner
  | .flwr bindings lets condition result =>
      Binding.collectTuples library bindings scope fun scope =>
        Binding.bindInOrder library lets scope fun scope => do
          if ← Condition.holdsIfPresent library condition scope then result.evaluate library scope
          else return []

/-- Whether a condition holds in a scope. -/
def Condition.holds (library : Library) (condition : Condition) (scope : Scope) :
    Evaluation Bool :=
  match condition with
  | .valueEq left right =>
      match left.constant?, right.constant? with
      | some value, some other => return value = other
      | some value, none => do
          let items ← right.evaluate library scope
          observe library fun view => anyStringValue view items value
      | none, some value => do
          let items ← left.evaluate library scope
          observe library fun view => anyStringValue view items value
      | none, none => do
          let items ← left.evaluate library scope
          let others ← right.evaluate library scope
          observe library fun view => anyValueEq view items others
  | .identityEq left right => do
      let items ← left.evaluate library scope
      let others ← right.evaluate library scope
      return anyIdentical items others
  | .empty query => do
      let items ← query.evaluate library scope
      return items.isEmpty
  | .someSatisfies bindings body =>
      Binding.anyTuple library bindings scope fun scope => body.holds library scope
  | .parenthesized inner => inner.holds library scope
  | .and left right => do
      if ← left.holds library scope then right.holds library scope else return false
  | .or left right => do
      if ← left.holds library scope then return true else right.holds library scope
  | .not inner => do return !(← inner.holds library scope)

/-- Whether a condition holds in a scope; one that is absent does. -/
def Condition.holdsIfPresent (library : Library) (condition : Option Condition) (scope : Scope) :
    Evaluation Bool :=
  match condition with
  | none => return true
  | some condition => condition.holds library scope

/-- Visits the scope of every tuple of a clause and collects what the visits yield. -/
def Binding.collectTuples (library : Library) (bindings : List Binding) (scope : Scope)
    (visit : Scope → Evaluation (List Item)) : Evaluation (List Item) :=
  match bindings with
  | [] => visit scope
  | ⟨name, source⟩ :: rest => do
      let items ← source.evaluate library scope
      collect (fun item => Binding.collectTuples library rest ((name, [item]) :: scope) visit) items

/-- Visits the scopes of the tuples of a clause until a visit says yes. -/
def Binding.anyTuple (library : Library) (bindings : List Binding) (scope : Scope)
    (visit : Scope → Evaluation Bool) : Evaluation Bool :=
  match bindings with
  | [] => visit scope
  | ⟨name, source⟩ :: rest => do
      let items ← source.evaluate library scope
      any (fun item => Binding.anyTuple library rest ((name, [item]) :: scope) visit) items

/-- Visits the scope in which every variable of a clause stands for all items of its
source, each source seeing the variables before it. -/
def Binding.bindInOrder (library : Library) (bindings : List Binding) (scope : Scope)
    (visit : Scope → Evaluation (List Item)) : Evaluation (List Item) :=
  match bindings with
  | [] => visit scope
  | ⟨name, source⟩ :: rest => do
      let items ← source.evaluate library scope
      Binding.bindInOrder library rest ((name, items) :: scope) visit

/-- The scope in which every variable of a clause stands for all items of its source, no
source seeing the variables of the clause. -/
def Binding.bindApart (library : Library) (bindings : List Binding) (outer inner : Scope) :
    Evaluation Scope :=
  match bindings with
  | [] => return inner
  | ⟨name, source⟩ :: rest => do
      let items ← source.evaluate library outer
      Binding.bindApart library rest outer ((name, items) :: inner)
end

end TreeQuery
