/-!
# Lines of a text

A line ends at a line feed; one carriage return directly before that line feed belongs
to the line end, and a text that ends in a line feed has no empty line after it.
Layouts are built from lines: `indent` moves every line of a text two columns to the
right.
-/

set_option autoImplicit false

namespace TreeQuery.Text

/-- A finished line, given backwards, without the carriage return before its line feed. -/
def finishLine : List Char → List Char
  | '\r' :: reversed => reversed.reverse
  | reversed => reversed.reverse

/-- The lines of a text, after the characters of the current line, given backwards. -/
def splitLines : List Char → List Char → List (List Char)
  | [], [] => []
  | [], reversed => [reversed.reverse]
  | '\n' :: rest, reversed => finishLine reversed :: splitLines rest []
  | c :: rest, reversed => splitLines rest (c :: reversed)

/-- The lines of a text. -/
def lines (text : String) : List String :=
  (splitLines text.toList []).map String.ofList

/-- Every line of a text, moved two columns to the right. -/
def indent (text : String) : String :=
  "\n".intercalate ((lines text).map ("  " ++ ·))

end TreeQuery.Text
