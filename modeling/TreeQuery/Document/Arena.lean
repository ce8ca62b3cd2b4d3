import TreeQuery.Document.Fragment

/-!
# Arenas

An arena holds the nodes of one document, or those that an evaluation constructs, as
records in the order of their creation.  The slot of a record is its place in that
order; slot zero is the document node.  A record says what its node is and which slots
are its parent, its children and its attributes.

Nodes are created from fragments, an element before its attributes and these before its
children, so that slots number a document in document order.  Creation only adds
records and extends the lists of existing ones; the one record it changes is that of an
attribute which is given again.
-/

set_option autoImplicit false

namespace TreeQuery

/-- What a node is. -/
inductive Payload where
  | document
  | element (name : String)
  | attribute (name value : String)
  | text (value : String)
  deriving DecidableEq

/-- The four kinds of nodes. -/
inductive Kind where
  | document
  | element
  | attribute
  | text
  deriving DecidableEq

namespace Payload

/-- The kind of a node. -/
def kind : Payload → Kind
  | .document => .document
  | .element _ => .element
  | .attribute _ _ => .attribute
  | .text _ => .text

/-- The name of an element or an attribute. -/
def name? : Payload → Option String
  | .element name | .attribute name _ => some name
  | .document | .text _ => none

/-- The value of an attribute or a text. -/
def value? : Payload → Option String
  | .attribute _ value | .text value => some value
  | .document | .element _ => none

end Payload

/-- A node with its links to other nodes of the arena. -/
structure Record where
  payload : Payload
  parent : Option Nat
  children : List Nat
  attributes : List Nat
  deriving DecidableEq

/-- A node without links. -/
def Record.detached (payload : Payload) (parent : Option Nat) : Record :=
  ⟨payload, parent, [], []⟩

/-- The nodes of a document, or those that an evaluation constructs. -/
structure Arena where
  records : Array Record
  deriving DecidableEq

namespace Arena

/-! ## Records -/

/-- The arena with a document node only. -/
def empty : Arena := ⟨#[.detached .document none]⟩

instance : Inhabited Arena := ⟨empty⟩

/-- How many nodes there are. -/
def size (arena : Arena) : Nat := arena.records.size

/-- Whether there is no node beside the document node. -/
def isEmpty (arena : Arena) : Bool := arena.size ≤ 1

/-- The record in a slot; a slot without a record reads as an empty text. -/
def record (arena : Arena) (slot : Nat) : Record :=
  arena.records.getD slot (.detached (.text "") none)

/-- Adds a node that is linked from nowhere. -/
def add (arena : Arena) (payload : Payload) (parent : Option Nat) : Arena :=
  ⟨arena.records.push (.detached payload parent)⟩

/-- Adds a node as the last child of another. -/
def addChild (arena : Arena) (parent : Nat) (payload : Payload) : Arena :=
  let slot := arena.size
  ⟨(arena.add payload (some parent)).records.modify parent fun record =>
    { record with children := record.children ++ [slot] }⟩

/-- The attribute of a node with a given name. -/
def attribute? (arena : Arena) (owner : Nat) (name : String) : Option Nat :=
  (arena.record owner).attributes.find? fun slot => (arena.record slot).payload.name? == some name

/-- Gives a node an attribute; a value given again replaces the earlier one in place. -/
def setAttribute (arena : Arena) (owner : Nat) (name value : String) : Arena :=
  match arena.attribute? owner name with
  | some slot =>
      ⟨arena.records.modify slot fun record => { record with payload := .attribute name value }⟩
  | none =>
      let slot := arena.size
      ⟨(arena.add (.attribute name value) (some owner)).records.modify owner fun record =>
        { record with attributes := record.attributes ++ [slot] }⟩

/-- Gives a node attributes, one after the other. -/
def setAttributes (arena : Arena) (owner : Nat) (attributes : List (String × String)) : Arena :=
  attributes.foldl (fun arena (name, value) => arena.setAttribute owner name value) arena

/-! ## Building from fragments -/

mutual
/-- Adds a fragment below a node.  An attribute is given to the node itself if that is
an element, and dropped otherwise. -/
def graft (arena : Arena) (parent : Nat) : Fragment → Arena
  | .element name attributes children =>
      let slot := arena.size
      let arena := (arena.addChild parent (.element name)).setAttributes slot attributes
      graftAll arena slot children
  | .attribute name value =>
      if (arena.record parent).payload.kind = .element then arena.setAttribute parent name value
      else arena
  | .text value => arena.addChild parent (.text value)

/-- Adds fragments below a node, one after the other. -/
def graftAll (arena : Arena) (parent : Nat) : List Fragment → Arena
  | [] => arena
  | fragment :: rest => graftAll (arena.graft parent fragment) parent rest
end

/-- The arena of a document with the given fragments below its document node. -/
def ofFragments (fragments : List Fragment) : Arena :=
  empty.graftAll 0 fragments

/-- Creates a text without a parent; its slot is the size before. -/
def createText (arena : Arena) (value : String) : Arena :=
  arena.add (.text value) none

/-- Creates an element without a parent from its content; its slot is the size before. -/
def createElement (arena : Arena) (name : String) (content : List Fragment) : Arena :=
  (arena.add (.element name) none).graftAll arena.size content

/-! ## Reading -/

/-- The children of a node, in order. -/
def children (arena : Arena) (slot : Nat) : List Nat := (arena.record slot).children

/-- The attributes of a node, in order. -/
def attributes (arena : Arena) (slot : Nat) : List Nat := (arena.record slot).attributes

/-- The attributes of a node as pairs of a name and a value. -/
def attributeValues (arena : Arena) (slot : Nat) : List (String × String) :=
  (arena.attributes slot).map fun slot =>
    let payload := (arena.record slot).payload
    (payload.name?.getD "", payload.value?.getD "")

/-- The fragment a node is the top of, down to a given depth.  The document node reads
as an element without a name. -/
def fragmentWithin (arena : Arena) : Nat → Nat → Fragment
  | depth, slot =>
      let element := fun name =>
        Fragment.element name (arena.attributeValues slot) <|
          match depth with
          | 0 => []
          | depth + 1 => (arena.children slot).map (arena.fragmentWithin depth)
      match (arena.record slot).payload with
      | .document => element ""
      | .element name => element name
      | .attribute name value => .attribute name value
      | .text value => .text value

/-- The fragment a node is the top of.  A child has a greater slot than its parent, so
no branch is longer than there are nodes. -/
def fragment (arena : Arena) (slot : Nat) : Fragment :=
  arena.fragmentWithin arena.size slot

/-- What a node contributes where it is copied: its fragment, or for the document node
the fragments below it. -/
def content (arena : Arena) (slot : Nat) : List Fragment :=
  match (arena.record slot).payload with
  | .document => (arena.children slot).map arena.fragment
  | _ => [arena.fragment slot]

/-- The string value of a node. -/
def stringValue (arena : Arena) (slot : Nat) : String :=
  (arena.fragment slot).stringValue

/-- Visits the slots on a stack, each followed by its descendants, at most as many as
given. -/
def visit (arena : Arena) : Nat → List Nat → List Nat
  | 0, _ => []
  | _, [] => []
  | limit + 1, slot :: stack => slot :: visit arena limit (arena.children slot ++ stack)

/-- A node and its descendants, each before its own descendants.  No node is visited
twice, so there are no more visits than nodes. -/
def descendantsOrSelf (arena : Arena) (slot : Nat) : List Nat :=
  arena.visit arena.size [slot]

end Arena

/-- A document: its nodes, and the name it was read under. -/
structure Document where
  uri : Option String
  arena : Arena
  deriving DecidableEq

end TreeQuery
