/-!
# Fragments

A fragment is a piece of a document that stands by itself: an element with its
attributes and children, an attribute, or a text.  Documents are built from fragments,
and a node is copied by taking the fragment it is the top of.

Attributes can also be given as fragments among the children of an element; the element
that is built from them then carries the attribute.
-/

set_option autoImplicit false

namespace TreeQuery

/-- A piece of a document that stands by itself. -/
inductive Fragment where
  | element (name : String) (attributes : List (String × String)) (children : List Fragment)
  | attribute (name value : String)
  | text (value : String)

namespace Fragment

instance : Inhabited Fragment := ⟨.text ""⟩

/-- Whether a fragment is an element. -/
def isElement : Fragment → Bool
  | .element _ _ _ => true
  | _ => false

/-- The children of an element; no other fragment has any. -/
def children : Fragment → List Fragment
  | .element _ _ children => children
  | _ => []

mutual
/-- The texts of an element and of all elements in it, one after the other. -/
def innerText : Fragment → String
  | .element _ _ children => innerTexts children
  | .attribute _ _ => ""
  | .text value => value

/-- The texts of several fragments, one after the other. -/
def innerTexts : List Fragment → String
  | [] => ""
  | fragment :: rest => fragment.innerText ++ innerTexts rest
end

/-- The string value: the value of an attribute, the inner text of anything else. -/
def stringValue : Fragment → String
  | .attribute _ value => value
  | fragment => fragment.innerText

end Fragment

end TreeQuery
