import TreeQuery.Document.Library
import TreeQuery.Document.Node

/-!
# Collections of documents

A collection holds the documents that a program works with, numbered in the order in which
they come about.  Documents come about without nodes, from fragments, or by reading a text;
texts and elements are created in any of them.  An element is created around copies of
nodes, which can live in any document of the collection, its own included.

A shelf can hold texts, which are read under their names, and documents of a collection as
they are.  A text is another document under each of its names; a document of a collection is one
document under all of its names, and its title is the first of them.
-/

set_option autoImplicit false

namespace TreeQuery

/-- The documents of a program, numbered in the order in which they come about. -/
structure Collection where
  documents : List Document

/-- What a program can do with its documents: have another one, or create a node in one. -/
inductive Creation where
  | construction
  | build (uri : Option String) (fragments : List Fragment)
  | load (uri : Option String) (text : String)
  | text (document : Nat) (value : String)
  | element (document : Nat) (name : String) (items : List (Node Nat))

namespace Collection

/-- The collection without documents. -/
def empty : Collection := ⟨[]⟩

/-- The arenas of the documents, by their numbers. -/
def view (collection : Collection) : View Nat := fun number =>
  match collection.documents[number]? with
  | some document => document.arena
  | none => .empty

/-- Adds a document. -/
def add (collection : Collection) (document : Document) : Collection :=
  ⟨collection.documents ++ [document]⟩

/-- Changes the arena of a document. -/
def modify (collection : Collection) (number : Nat) (change : Arena → Arena) : Collection :=
  ⟨collection.documents.modify number fun document =>
    { document with arena := change document.arena }⟩

/-- The collection after a creation; a text that is not well formed adds no document. -/
def create (collection : Collection) : Creation → Collection
  | .construction => collection.add ⟨none, .empty⟩
  | .build uri fragments => collection.add ⟨uri, .ofFragments fragments⟩
  | .load uri text =>
      match Document.load uri text with
      | .ok document => collection.add document
      | .error _ => collection
  | .text number value => collection.modify number (·.createText value)
  | .element number name items =>
      let content := items.flatMap (·.content collection.view)
      collection.modify number (·.createElement name content)

/-- The collection after several creations, one after the other. -/
def createAll (collection : Collection) (creations : List Creation) : Collection :=
  creations.foldl create collection

end Collection

/-- What a shelf has under a name: a text, or a document of a collection. -/
inductive Holding where
  | text (content : String)
  | document (number : Nat)
  deriving DecidableEq

/-- The document that is found under a name. -/
def Holding.find (collection : Collection) (name : String) : Holding → Except Failure Arena
  | .text content => Arena.load name content
  | .document number => .ok (collection.view number)

/-- The first name in a table under which the same document stands as under a name. -/
def Holding.title (table : List (String × Holding)) (name : String) : String :=
  match table.lookup name with
  | some (.document number) =>
      ((table.map (·.1)).find? (table.lookup · = some (.document number))).getD name
  | _ => name

/-- The shelf with the given texts and documents of a collection. -/
def Collection.shelf (collection : Collection) (table : List (String × Holding)) : Shelf :=
  ⟨table.map fun (name, holding) => (name, holding.find collection name)⟩

/-- What names stand for that have the given texts and documents of a collection. -/
def Collection.resolver (collection : Collection) (table : List (String × Holding)) : Resolver :=
  ⟨Holding.title table, (collection.shelf table).library⟩

end TreeQuery
