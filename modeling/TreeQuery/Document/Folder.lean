import TreeQuery.Document.Files

/-!
# Folders

A folder holds files under relative paths, as bytes, and stands for a working directory.
Its directories are those that its files lie in.  A path is followed part by part: an
empty part or a dot stays in a directory, two dots leave it, and a name leads to a
directory or a file.  Outside the folder nothing but directories can be seen.

The length of a name is limited, and so is that of a path, both counted in bytes.  A
path is measured before it is followed, a name only when it is looked up: a long name
after a part that leads nowhere is never reached.
-/

set_option autoImplicit false

namespace TreeQuery

/-- Files under relative paths. -/
structure Folder where
  files : List (String × ByteArray)

namespace Folder

/-- The parts of a path. -/
def partsOf (path : String) : List String := path.splitOn "/"

/-- What a path leads to: a directory of the folder, which is named by its parts, a
directory outside of it, or a file. -/
inductive Place where
  | directory (parts : List String)
  | outside
  | file (bytes : ByteArray)

/-- The bytes that a name has at most. -/
def nameLimit : Nat := 255

/-- The bytes that a path has at most. -/
def pathLimit : Nat := 4095

/-- What a name leads to from a directory of the folder. -/
def enter (folder : Folder) (directory : List String) (name : String) :
    Except Unavailability Place :=
  let target := directory ++ [name]
  match folder.files.find? fun (path, _) => partsOf path == target with
  | some (_, bytes) => .ok (.file bytes)
  | none =>
      if folder.files.any fun (path, _) => target.isPrefixOf (partsOf path) then
        .ok (.directory target)
      else .error .notFound

/-- Follows one part of a path. -/
def follow (folder : Folder) (place : Place) (part : String) : Except Unavailability Place :=
  let stays := part = "" || part = "."
  match place with
  | .file _ => .error .notDirectory
  | .outside =>
      if stays || part = ".." then .ok .outside
      else if nameLimit < part.utf8ByteSize then .error .nameTooLong
      else .error .notFound
  | .directory parts =>
      if stays then .ok place
      else if part = ".." then
        .ok (if parts.isEmpty then .outside else .directory parts.dropLast)
      else if nameLimit < part.utf8ByteSize then .error .nameTooLong
      else folder.enter parts part

/-- What a path leads to. -/
def locate (folder : Folder) (path : String) : Except Unavailability Place :=
  if path.toList.contains '\x00' then .error .nullInName
  else if path.isEmpty then .error .notFound
  else if pathLimit < path.utf8ByteSize then .error .nameTooLong
  else
    let start := if path.startsWith "/" then Place.outside else .directory []
    (partsOf path).foldlM folder.follow start

/-- The texts of the files in a folder. -/
def contents (folder : Folder) : Files := fun path => do
  match ← folder.locate path with
  | .file bytes =>
      match String.fromUTF8? bytes with
      | some content => .ok content
      | none => .error .notText
  | .directory _ | .outside => .error .isDirectory

end Folder

end TreeQuery
