import TreeQuery.Text.Extending
import TreeQuery.Text.Unprinted

/-!
# Quoted characters and texts

Diagnostics show characters and names between quotes.  A character that would not be
visible there is written as an escape: the usual letters for tabulator, line ends and
the null character, and the code point in hexadecimal digits between braces for
everything else that has no printed form.
-/

set_option autoImplicit false

namespace TreeQuery.Text

/-- The hexadecimal digits of a number, without leading zeros. -/
def hexadecimal (number : Nat) : String :=
  String.ofList (Nat.toDigits 16 number)

/-- The four fillers of Hangul: letters by their category, but drawn as nothing. -/
def isFiller (c : Char) : Bool :=
  c.toNat = 0x115F || c.toNat = 0x1160 || c.toNat = 0x3164 || c.toNat = 0xFFA0

/-- The two halfwidth sound marks of katakana: they extend the character before them, but
are drawn in a cell of their own. -/
def isHalfwidthMark (c : Char) : Bool :=
  c.toNat = 0xFF9E || c.toNat = 0xFF9F

/-- The characters that are not seen, or not seen apart from the one before. -/
def isInvisible (c : Char) : Bool :=
  isUnprinted c || (isExtending c && !isHalfwidthMark c) || isFiller c

/-- A character as it stands between quotes of the given kind. -/
def quotedChar (quote : Char) (c : Char) : String :=
  if c = '\x00' then "\\0"
  else if c = '\t' then "\\t"
  else if c = '\n' then "\\n"
  else if c = '\r' then "\\r"
  else if c = '\\' || c = quote then String.ofList ['\\', c]
  else if isInvisible c then "\\u\x7b" ++ hexadecimal c.toNat ++ "\x7d"
  else String.singleton c

/-- A character between single quotes. -/
def quoteChar (c : Char) : String :=
  "'" ++ quotedChar '\x27' c ++ "'"

/-- A text between double quotes. -/
def quote (text : String) : String :=
  "\"" ++ String.join (text.toList.map (quotedChar '\x22')) ++ "\""

end TreeQuery.Text
