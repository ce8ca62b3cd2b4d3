import TreeQuery.Document.Fragment
import TreeQuery.Text.Escape

/-!
# Serialization

The compact form writes a fragment on one line as markup, with empty elements closed at
once.  The pretty form puts every child of an element on a line of its own if one of
them is an element, and is compact otherwise.  An attribute by itself is written like
the part of a tag; as an item of its own it is marked with an at sign.

The compact form is also what value comparison compares.
-/

set_option autoImplicit false

namespace TreeQuery

/-- An attribute as it stands in a tag. -/
def writeAttribute (name value : String) : String :=
  name ++ "=\"" ++ Text.escape value ++ "\""

/-- An attribute as an item of its own. -/
def writeAttributeItem (name value : String) : String :=
  "@" ++ writeAttribute name value

/-- An opening tag up to the sign that ends it. -/
def writeTag (name : String) (attributes : List (String × String)) : String :=
  "<" ++ name ++ String.join (attributes.map fun (name, value) => " " ++ writeAttribute name value)

namespace Fragment

mutual
/-- The compact form of a fragment. -/
def compact : Fragment → String
  | .element name attributes [] => writeTag name attributes ++ "/>"
  | .element name attributes (child :: rest) =>
      writeTag name attributes ++ ">" ++ (child.compact ++ compactAll rest) ++ "</" ++ name ++ ">"
  | .attribute name value => writeAttribute name value
  | .text value => Text.escape value

/-- The compact forms of several fragments, one after the other. -/
def compactAll : List Fragment → String
  | [] => ""
  | fragment :: rest => fragment.compact ++ compactAll rest
end

/-- The compact form of an item of a result. -/
def compactItem : Fragment → String
  | .attribute name value => writeAttributeItem name value
  | fragment => fragment.compact

/-- The spaces at the start of a line at a depth. -/
def margin (depth : Nat) : String :=
  String.ofList (List.replicate (2 * depth) ' ')

mutual
/-- The pretty form of a fragment at a depth; every line is ended. -/
def prettyAt (depth : Nat) : Fragment → String
  | .element name attributes children =>
      if children.any isElement then
        margin depth ++ writeTag name attributes ++ ">\n" ++ prettyAllAt (depth + 1) children ++
          margin depth ++ "</" ++ name ++ ">\n"
      else margin depth ++ (Fragment.element name attributes children).compact ++ "\n"
  | .attribute name value => margin depth ++ writeAttributeItem name value ++ "\n"
  | .text value => margin depth ++ Text.escape value ++ "\n"

/-- The pretty forms of several fragments at a depth, one after the other. -/
def prettyAllAt (depth : Nat) : List Fragment → String
  | [] => ""
  | fragment :: rest => fragment.prettyAt depth ++ prettyAllAt depth rest
end

end Fragment

/-- How a sequence of items is laid out. -/
structure Layout where
  /-- Whether the number of items and the number of each item are given in comments. -/
  verbose : Bool
  /-- Whether items are in pretty form. -/
  indent : Bool
  deriving DecidableEq

/-- An item, given by the fragments it contributes, in the form of a layout. -/
def Layout.item (layout : Layout) (content : List Fragment) : String :=
  if layout.indent then Fragment.prettyAllAt 0 content
  else match content with
    | [fragment] => fragment.compactItem ++ "\n"
    | fragments => Fragment.compactAll fragments ++ "\n"

/-- The items from a number on, each preceded by its comment if there are any. -/
def Layout.items (layout : Layout) : Nat → List (List Fragment) → String
  | _, [] => ""
  | number, content :: rest =>
      (if layout.verbose then "<!-- Node #" ++ toString number ++ " -->\n" else "") ++
        layout.item content ++ layout.items (number + 1) rest

/-- A sequence of items, each given by the fragments it contributes. -/
def Layout.write (layout : Layout) (contents : List (List Fragment)) : String :=
  (if layout.verbose then "<!-- Number of nodes: " ++ toString contents.length ++ " -->\n"
    else "") ++ layout.items 1 contents

end TreeQuery
