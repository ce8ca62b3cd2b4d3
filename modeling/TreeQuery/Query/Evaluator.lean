import TreeQuery.Query.Evaluation

/-!
# Evaluators

An evaluator answers one query after the other.  It keeps the nodes that it constructs, and
every document from the first time that it is asked for: the document that is found then
stands for its name in all later evaluations, whatever could be found later.  A name under
which nothing could be read is looked up again when it is asked for again.  Documents are kept
under their titles, so a document that stands under several names is one document.

Apart from where documents come from, a query is answered as it is evaluated over a library,
by the same steps: whatever does not ask for a document is an evaluation over the documents
that have been read.
-/

set_option autoImplicit false

namespace TreeQuery

/-- A path in the document that its name stands for. -/
def DocumentPath.titled (title : String → String) (path : DocumentPath) : DocumentPath :=
  { path with document := title path.document }

/-- What an evaluator keeps from one evaluation to the next. -/
structure Evaluator where
  documents : List (String × Arena)
  constructed : Arena

namespace Evaluator

/-- An evaluator that has not been used. -/
def new : Evaluator := ⟨[], .empty⟩

/-- The document that was read under a name. -/
def document? (evaluator : Evaluator) (name : String) : Option Arena :=
  evaluator.documents.lookup name

/-- Keeps a document. -/
def keep (evaluator : Evaluator) (name : String) (document : Arena) : Evaluator :=
  { evaluator with documents := (name, document) :: evaluator.documents }

/-- The documents that have been read and no others. -/
def library (evaluator : Evaluator) : Library := fun name =>
  match evaluator.document? name with
  | some document => .ok document
  | none => .error (.unavailable name .unknown)

/-- The arenas of the nodes that an evaluator can have yielded. -/
def view (evaluator : Evaluator) : View Home :=
  evaluator.library.view evaluator.constructed

end Evaluator

/-- A computation of an evaluator; failing keeps what was read and constructed. -/
abbrev Session : Type → Type := EStateM Failure Evaluator

namespace Session

variable {α β : Type}

/-- Performs an evaluation over the documents that have been read. -/
def perform (evaluation : Library → Evaluation α) : Session α := fun evaluator =>
  match evaluation evaluator.library evaluator.constructed with
  | .ok value constructed => .ok value { evaluator with constructed }
  | .error failure constructed => .error failure { evaluator with constructed }

/-- Reads through the arenas of the evaluator as they are now. -/
def observe (look : View Home → α) : Session α :=
  perform fun library => Evaluation.observe library look

/-- Reads a document under its name, if that has not been done before. -/
def read (resolver : Library) (name : String) : Session Unit := do
  match (← get).document? name with
  | some _ => return
  | none =>
      match resolver name with
      | .ok document => modify (·.keep name document)
      | .error failure => throw failure

/-- Evaluates a document path in the document that its name stands for. -/
def documentPath (resolver : Resolver) (path : DocumentPath) : Session (List Item) := do
  let path := path.titled resolver.title
  read resolver.library path.document
  perform fun library => Evaluation.documentPath library path

/-- Visits the members of a list in order and collects what the visits yield. -/
def collect (visit : α → Session (List β)) : List α → Session (List β)
  | [] => return []
  | item :: rest => do
      let found ← visit item
      let others ← collect visit rest
      return found ++ others

/-- Visits the members of a list in order until a visit says yes. -/
def any (visit : α → Session Bool) : List α → Session Bool
  | [] => return false
  | item :: rest => do
      if ← visit item then return true
      any visit rest

/-- Joins what two computations yield, if the tags come in pairs. -/
def join (order : KeyOrder) (left right : Session (List Item))
    (leftTags rightTags : List String) : Session (List Item) :=
  if leftTags.length = rightTags.length then do
    let items ← left
    let others ← right
    perform fun library =>
      Evaluation.joinTuples library order items others leftTags rightTags
  else throw (.joinArity leftTags.length rightTags.length)

mutual
/-- The value of a query in a scope. -/
def evaluate (resolver : Resolver) (query : Query) (scope : Scope) : Session (List Item) :=
  match query with
  | .reference name =>
      match scope.lookup name with
      | some items => return items
      | none => throw (.unboundVariable name)
  | .constant value => do return [← perform fun _ => Evaluation.constructText value]
  | .document path => documentPath resolver path
  | .parenthesized inner => evaluate resolver inner scope
  | .pair left right => do
      let items ← evaluate resolver left scope
      let others ← evaluate resolver right scope
      return items ++ others
  | .step base axis path => do
      let context ← evaluate resolver base scope
      observe fun view => path.selectAlong view axis context
  | .element name body => do
      let items ← evaluate resolver body scope
      return [← perform fun library => Evaluation.constructElement library name items]
  | .join left right leftTags rightTags =>
      join .asMet (evaluate resolver left scope) (evaluate resolver right scope) leftTags rightTags
  | .letIn bindings body => do
      let inner ← bindApart resolver bindings scope scope
      evaluate resolver body inner
  | .flwr bindings lets condition result =>
      collectTuples resolver bindings scope fun scope =>
        bindInOrder resolver lets scope fun scope => do
          if ← holdsIfPresent resolver condition scope then evaluate resolver result scope
          else return []

/-- Whether a condition holds in a scope. -/
def holds (resolver : Resolver) (condition : Condition) (scope : Scope) : Session Bool :=
  match condition with
  | .valueEq left right =>
      match left.constant?, right.constant? with
      | some value, some other => return value = other
      | some value, none => do
          let items ← evaluate resolver right scope
          observe fun view => anyStringValue view items value
      | none, some value => do
          let items ← evaluate resolver left scope
          observe fun view => anyStringValue view items value
      | none, none => do
          let items ← evaluate resolver left scope
          let others ← evaluate resolver right scope
          observe fun view => anyValueEq view items others
  | .identityEq left right => do
      let items ← evaluate resolver left scope
      let others ← evaluate resolver right scope
      return anyIdentical items others
  | .empty query => do
      let items ← evaluate resolver query scope
      return items.isEmpty
  | .someSatisfies bindings body =>
      anyTuple resolver bindings scope fun scope => holds resolver body scope
  | .parenthesized inner => holds resolver inner scope
  | .and left right => do
      if ← holds resolver left scope then holds resolver right scope else return false
  | .or left right => do
      if ← holds resolver left scope then return true else holds resolver right scope
  | .not inner => do return !(← holds resolver inner scope)

/-- Whether a condition holds in a scope; one that is absent does. -/
def holdsIfPresent (resolver : Resolver) (condition : Option Condition) (scope : Scope) :
    Session Bool :=
  match condition with
  | none => return true
  | some condition => holds resolver condition scope

/-- Visits the scope of every tuple of a clause and collects what the visits yield. -/
def collectTuples (resolver : Resolver) (bindings : List Binding) (scope : Scope)
    (visit : Scope → Session (List Item)) : Session (List Item) :=
  match bindings with
  | [] => visit scope
  | ⟨name, source⟩ :: rest => do
      let items ← evaluate resolver source scope
      collect (fun item => collectTuples resolver rest ((name, [item]) :: scope) visit) items

/-- Visits the scopes of the tuples of a clause until a visit says yes. -/
def anyTuple (resolver : Resolver) (bindings : List Binding) (scope : Scope)
    (visit : Scope → Session Bool) : Session Bool :=
  match bindings with
  | [] => visit scope
  | ⟨name, source⟩ :: rest => do
      let items ← evaluate resolver source scope
      any (fun item => anyTuple resolver rest ((name, [item]) :: scope) visit) items

/-- Visits the scope in which every variable of a clause stands for all items of its
source, each source seeing the variables before it. -/
def bindInOrder (resolver : Resolver) (bindings : List Binding) (scope : Scope)
    (visit : Scope → Session (List Item)) : Session (List Item) :=
  match bindings with
  | [] => visit scope
  | ⟨name, source⟩ :: rest => do
      let items ← evaluate resolver source scope
      bindInOrder resolver rest ((name, items) :: scope) visit

/-- The scope in which every variable of a clause stands for all items of its source, no
source seeing the variables of the clause. -/
def bindApart (resolver : Resolver) (bindings : List Binding) (outer inner : Scope) :
    Session Scope :=
  match bindings with
  | [] => return inner
  | ⟨name, source⟩ :: rest => do
      let items ← evaluate resolver source outer
      bindApart resolver rest outer ((name, items) :: inner)
end

end Session

/-! ## Calls -/

/-- What an evaluator can be asked for. -/
inductive Call where
  | query (asked : Query)
  | path (asked : DocumentPath)

/-- The computation that a call starts, with what names stand for at its time: each is looked up
once in a call, since it is kept when it is found and ends the call when it is not. -/
def Call.session (resolver : Resolver) : Call → Session (List Item)
  | .query asked => Session.evaluate resolver asked []
  | .path asked => Session.documentPath resolver asked

namespace Evaluator

variable {α : Type}

/-- An evaluator after a computation, whether that has succeeded or failed. -/
def after (evaluator : Evaluator) (session : Session α) : Evaluator :=
  match session evaluator with
  | .ok _ later | .error _ later => later

/-- An evaluator after several calls, each with the documents that can be found at its
time; which names share a document stays the same. -/
def afterAll (evaluator : Evaluator) (title : String → String)
    (calls : List (Library × Call)) : Evaluator :=
  calls.foldl (fun evaluator (library, call) => evaluator.after (call.session ⟨title, library⟩))
    evaluator

end Evaluator

end TreeQuery
