import TreeQuery.Grammar.Parser
import TreeQuery.Path.Basic

/-!
# Tokens

Names, strings, keywords and operators.  A name starts with an ASCII letter or an
underscore and goes on with ASCII letters, digits, underscores and hyphens.  A keyword
is not followed by a further character of a name, and the reserved words are exactly the
keywords, so a reserved word is never read as a tag.  A string stands between double
quotes on one line and has no escapes.
-/

set_option autoImplicit false

namespace TreeQuery.Grammar

open TreeQuery.Grammar.Parser

/-- The characters that start a name. -/
def startsName (c : Char) : Bool :=
  ('a' ≤ c && c ≤ 'z') || ('A' ≤ c && c ≤ 'Z') || c = '_'

/-- The characters that continue a name. -/
def continuesName (c : Char) : Bool :=
  startsName c || ('0' ≤ c && c ≤ '9') || c = '-'

/-- The characters that a string can hold. -/
def insideString (c : Char) : Bool :=
  c ≠ '\x22' && c ≠ '\n' && c ≠ '\r'

def identifier : Parser String :=
  rule .identifier do
    let first ← character startsName
    let rest ← charactersWhile continuesName
    return String.ofList (first :: rest)

def stringLiteral : Parser String :=
  rule .stringLiteral do
    literal "\""
    let value ← rule .stringInner (charactersWhile insideString)
    literal "\""
    return String.ofList value

/-- A variable, read as its name. -/
def reference : Parser String :=
  rule .reference do
    literal "$"
    identifier

/-- One of several spellings, not followed by a character that continues a name. -/
def word (spellings : List String) : Parser Unit := do
  firstOf (spellings.map literal)
  absent (character continuesName)

/-- A keyword with one spelling. -/
def keyword (name : Rule) (spelling : String) : Parser Unit :=
  rule name (word [spelling])

def docKeyword : Parser Unit := rule .docKeyword (word ["document", "doc"])

/-- The words that are never tags. -/
def reservedWords : List String :=
  ["document", "doc", "for", "in", "let", "where", "return", "join", "some", "satisfies",
    "empty", "and", "or", "not", "eq", "is"]

def reserved : Parser Unit := rule .reserved (word reservedWords)

/-- The sign between two parts of a path; the longer one is tried first. -/
def axis : Parser Axis :=
  firstOf [
    rule .doubleSlash do literal "//"; return Axis.descendantOrSelf,
    rule .slash do literal "/"; return Axis.child]

/-- What a comparison compares: nodes themselves or their content. -/
inductive Comparison where
  | identity
  | value
  deriving DecidableEq

def valueOperator : Parser Unit :=
  rule .valueOperator (firstOf [literal "=", keyword .eqKeyword "eq"])

def comparison : Parser Comparison :=
  firstOf [
    rule .identityOperator do
      firstOf [literal "==", keyword .isKeyword "is"]
      return Comparison.identity,
    do valueOperator; return Comparison.value]

/-- The sign between the members of a sequence or a list. -/
def comma : Parser Unit := literal ","

/-- What a parser reads between two signs, with blanks allowed around it. -/
def enclosed {α : Type} (opening : String) (parser : Parser α) (closing : String) : Parser α := do
  literal opening
  blanks
  let value ← parser
  blanks
  literal closing
  return value

end TreeQuery.Grammar
