/-!
# Blank characters

The characters with the Unicode property `White_Space`, and the two operations that
depend on them: telling whether a text is blank throughout, and dropping the blanks at
its end.  Text nodes that are blank throughout are not part of a loaded document, so
the table decides which texts a query can see.
-/

set_option autoImplicit false

namespace TreeQuery.Text

/-- The twenty-five characters with the property `White_Space`. -/
def isBlank (c : Char) : Bool :=
  let code := c.toNat
  (0x9 ≤ code && code ≤ 0xD) || code == 0x20 || code == 0x85 || code == 0xA0 ||
    code == 0x1680 || (0x2000 ≤ code && code ≤ 0x200A) || code == 0x2028 || code == 0x2029 ||
    code == 0x202F || code == 0x205F || code == 0x3000

/-- Whether every character of a text is blank; the empty text is. -/
def allBlank (text : String) : Bool :=
  text.toList.all isBlank

/-- A text without the blanks it ends in. -/
def dropTrailingBlanks (text : String) : String :=
  String.ofList (text.toList.reverse.dropWhile isBlank).reverse

end TreeQuery.Text
