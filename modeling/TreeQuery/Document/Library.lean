import TreeQuery.Markup.Document

/-!
# Libraries

A library gives every name a document or the failure to read it.  It is what a query can
see of the world, and it does not change while queries are evaluated.  A shelf is a
library with finitely many documents, each read once.

Several names can stand for one document.  A resolver gives every name a title, which all names
of a document share, and the library has the document under its title.
-/

set_option autoImplicit false

namespace TreeQuery

/-- The documents that can be named, with the failure of each that cannot be read. -/
abbrev Library : Type := String → Except Failure Arena

/-- The titles that names stand for, and the documents under the titles. -/
structure Resolver where
  title : String → String
  library : Library

/-- What names stand for if every name has a document of its own. -/
def Resolver.ofLibrary (library : Library) : Resolver := ⟨id, library⟩

/-- Finitely many documents under their names. -/
structure Shelf where
  documents : List (String × Except Failure Arena)

/-- The library with the documents of a shelf and no others. -/
def Shelf.library (shelf : Shelf) : Library := fun name =>
  match shelf.documents.lookup name with
  | some result => result
  | none => .error (.unavailable name .unknown)

end TreeQuery
