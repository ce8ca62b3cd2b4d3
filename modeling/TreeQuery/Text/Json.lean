import TreeQuery.Text.Quoted

/-!
# JSON texts

Summaries are printed as JSON: natural numbers, texts, arrays, and objects whose members
stand in the order in which they are given.  The layout puts every item and every member
on a line of its own, two columns to the right of what it belongs to; an array or an
object without any is closed at once.

Inside a text only what cannot stand there is escaped: the quotation mark, the backslash
and the characters below the space.
-/

set_option autoImplicit false

namespace TreeQuery.Text

/-- A value that can be printed as JSON. -/
inductive Json where
  | number (value : Nat)
  | text (value : String)
  | array (items : List Json)
  | object (members : List (String × Json))

namespace Json

/-- A character as it stands in a JSON text. -/
def encodeChar (c : Char) : String :=
  if c = '\x22' then "\\\""
  else if c = '\\' then "\\\\"
  else if c = '\n' then "\\n"
  else if c = '\r' then "\\r"
  else if c = '\t' then "\\t"
  else if c = '\x08' then "\\b"
  else if c = '\x0c' then "\\f"
  else if c.toNat < 0x10 then "\\u000" ++ hexadecimal c.toNat
  else if c.toNat < 0x20 then "\\u00" ++ hexadecimal c.toNat
  else String.singleton c

/-- A text between quotation marks. -/
def encodeText (value : String) : String :=
  "\"" ++ String.join (value.toList.map encodeChar) ++ "\""

/-- The start of a new line at a depth. -/
def newLine (depth : Nat) : String :=
  "\n" ++ String.ofList (List.replicate (2 * depth) ' ')

mutual
/-- A value whose lines after the first stand at a depth. -/
def writeAt (depth : Nat) : Json → String
  | .number value => toString value
  | .text value => encodeText value
  | .array [] => "[]"
  | .array (item :: rest) =>
      "[" ++ newLine (depth + 1) ++ writeAt (depth + 1) item ++ writeItems (depth + 1) rest ++
        newLine depth ++ "]"
  | .object [] => "\x7b\x7d"
  | .object ((name, value) :: rest) =>
      "\x7b" ++ newLine (depth + 1) ++ encodeText name ++ ": " ++ writeAt (depth + 1) value ++
        writeMembers (depth + 1) rest ++ newLine depth ++ "\x7d"

/-- The items of an array after the first. -/
def writeItems (depth : Nat) : List Json → String
  | [] => ""
  | item :: rest => "," ++ newLine depth ++ writeAt depth item ++ writeItems depth rest

/-- The members of an object after the first. -/
def writeMembers (depth : Nat) : List (String × Json) → String
  | [] => ""
  | (name, value) :: rest =>
      "," ++ newLine depth ++ encodeText name ++ ": " ++ writeAt depth value ++
        writeMembers depth rest
end

/-- A value over several lines. -/
def pretty (value : Json) : String := value.writeAt 0

end Json

end TreeQuery.Text
