import TreeQuery.Document.Library

/-!
# Documents in files

Files give every path a text or the reason why there is none.  A document that is named
in a query is the file of that name in a base directory; its failures mention the whole
path if there is no text, and the name alone if the text is not well formed.
-/

set_option autoImplicit false

namespace TreeQuery

/-- The texts of files, by path. -/
abbrev Files : Type := String → Except Unavailability String

/-- The path of a file that is named relative to a directory.  A name that starts at the
root of all directories stands for itself. -/
def joinPath (base name : String) : String :=
  if name.startsWith "/" || base.isEmpty then name
  else if base.endsWith "/" then base ++ name
  else base ++ "/" ++ name

namespace Files

variable (files : Files)

/-- The text of a file. -/
def read (path : String) : Except Failure String :=
  match files path with
  | .ok content => .ok content
  | .error reason => .error (.unavailable path reason)

/-- The document in a file, which is named by its path. -/
def load (path : String) : Except Failure Document := do
  let content ← files.read path
  Document.load (some path) content

/-- The document of a name in a base directory. -/
def loadNamed (base name : String) : Except Failure Document := do
  let content ← files.read (joinPath base name)
  Document.load (some name) content

/-- The documents of some names in a base directory. -/
def shelf (base : String) (names : List String) : Shelf :=
  ⟨names.map fun name => (name, (files.loadNamed base name).map (·.arena))⟩

end Files

/-- Files that have been read before, under their paths. -/
def Files.ofContents (contents : List (String × Except Unavailability String)) : Files :=
  fun path =>
    match contents.lookup path with
    | some content => content
    | none => .error .notFound

end TreeQuery
