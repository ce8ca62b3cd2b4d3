/-!
# Escaping

The five characters that have a meaning in markup are written as references, in element
content and in attribute values alike; every other character stands for itself.  The
written form of one character starts with an ampersand exactly when the character is
one of the five, so no two characters share a written form.
-/

set_option autoImplicit false

namespace TreeQuery.Text

/-- The written form of one character. -/
def escapeChar (c : Char) : List Char :=
  match c with
  | '<' => ['&', 'l', 't', ';']
  | '>' => ['&', 'g', 't', ';']
  | '&' => ['&', 'a', 'm', 'p', ';']
  | '\x27' => ['&', 'a', 'p', 'o', 's', ';']
  | '\x22' => ['&', 'q', 'u', 'o', 't', ';']
  | c => [c]

/-- The written form of a text. -/
def escape (text : String) : String :=
  String.ofList (text.toList.flatMap escapeChar)

@[simp] theorem toList_escape (text : String) :
    (escape text).toList = text.toList.flatMap escapeChar := by
  simp [escape]

end TreeQuery.Text
