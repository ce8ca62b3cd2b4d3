import TreeQuery.Document.Arena
import TreeQuery.Document.Serialization
import TreeQuery.Text.Quoted

/-!
# Nodes

A node is named by the arena it lives in and its slot there; two names are equal exactly
when they name the same node.  Which arena a name means is left open: a view gives every
arena name an arena, and all that can be learned of a node is read through a view.
Nodes of different arenas can stand in one sequence.
-/

set_option autoImplicit false

namespace TreeQuery

/-- The name of a node: the arena it lives in, and its slot there. -/
structure Node (Home : Type) where
  home : Home
  slot : Nat
  deriving DecidableEq

/-- The arenas that arena names stand for. -/
abbrev View (Home : Type) : Type := Home → Arena

namespace Node

variable {Home : Type} (view : View Home) (node : Node Home)

/-- Another node of the same arena. -/
def sibling (slot : Nat) : Node Home := ⟨node.home, slot⟩

/-- The arena a node lives in. -/
def arena : Arena := view node.home

def record : Record := (node.arena view).record node.slot

def payload : Payload := (node.record view).payload

def kind : Kind := (node.payload view).kind

def name? : Option String := (node.payload view).name?

def value? : Option String := (node.payload view).value?

/-- Whether a node is an element of a given name. -/
def isElementNamed (name : String) : Bool := node.payload view = .element name

def parent? : Option (Node Home) := (node.record view).parent.map node.sibling

def children : List (Node Home) := (node.record view).children.map node.sibling

def attributes : List (Node Home) := (node.record view).attributes.map node.sibling

/-- The attribute of a node with a given name. -/
def attribute? (name : String) : Option (Node Home) :=
  ((node.arena view).attribute? node.slot name).map node.sibling

/-- A node and its descendants, each before its own descendants. -/
def descendantsOrSelf : List (Node Home) :=
  ((node.arena view).descendantsOrSelf node.slot).map node.sibling

/-- The fragment a node is the top of. -/
def fragment : Fragment := (node.arena view).fragment node.slot

/-- What a node contributes where it is copied. -/
def content : List Fragment := (node.arena view).content node.slot

def stringValue : String := (node.arena view).stringValue node.slot

/-- What two nodes have in common when they are equal by value. -/
def valueKey : String := Fragment.compactAll (node.content view)

/-- Whether two nodes are the same or equal by value. -/
def valueEq [DecidableEq Home] (other : Node Home) : Bool :=
  node = other || node.valueKey view = other.valueKey view

/-- A node in pretty form. -/
def pretty : String := Fragment.prettyAllAt 0 (node.content view)

/-- A node as a diagnostic shows it. -/
def describe : String :=
  let kind := match node.kind view with
    | .document => "Document"
    | .element => "Element"
    | .attribute => "Attribute"
    | .text => "Text"
  kind ++ "(" ++ node.valueKey view ++ ")"

/-- A sequence of nodes in the form of a layout. -/
def serialize (layout : Layout) (nodes : List (Node Home)) : String :=
  layout.write (nodes.map (·.content view))

end Node

/-- A document as a diagnostic shows it. -/
def Document.describe (document : Document) : String :=
  let uri := match document.uri with
    | none => "None"
    | some uri => "Some(" ++ Text.quote uri ++ ")"
  "Document \x7b uri: " ++ uri ++ ", nodes: " ++ toString document.arena.size ++ " \x7d"

end TreeQuery
