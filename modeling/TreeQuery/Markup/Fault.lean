import TreeQuery.Text.Position
import TreeQuery.Text.Quoted

/-!
# Faults of markup

Why a text is not a well-formed document.  Three faults concern the document as a whole;
every other one has a cause and the position where it was noticed.  Single characters
are shown by the first byte of their encoding.
-/

set_option autoImplicit false

namespace TreeQuery.Markup

/-- What would have been right in place of a character. -/
inductive Expected where
  | character (c : Char)
  | quote
  | whitespace
  | subsetOrEnd
  | entityValue
  | declarationEnd
  deriving DecidableEq

/-- Why reading stopped at a position. -/
inductive Cause where
  | unexpected (expected : Expected) (found : Char)
  | missing (text : String)
  | unknownToken
  | invalidName
  | invalidExternalId
  | forbiddenCharacter (c : Char)
  | hyphensInComment
  | bracketsInText
  | misplacedDeclaration
  | malformedReference
  | unknownEntity (name : String)
  | referenceLoop
  | markupInAttribute
  | wrongClosingTag (expected found : String)
  | strayClosingTag
  | duplicateAttribute (name : String)
  | duplicateNamespace (name : String)
  | unknownNamespace (name : String)
  | reservedElementNamespace
  | xmlBoundElsewhere
  | xmlNamespaceRebound
  | xmlnsNamespaceBound
  deriving DecidableEq

/-- Why a text is not a well-formed document. -/
inductive Fault where
  | noRoot
  | unclosedRoot
  | endOfText
  | located (cause : Cause) (position : Text.Position)
  deriving DecidableEq

/-- The character whose code is the first byte of the encoding of a character. -/
def leadingByte (c : Char) : Char :=
  let code := c.toNat
  if code < 0x80 then c
  else if code < 0x800 then Char.ofNat (0xC0 + code / 0x40)
  else if code < 0x10000 then Char.ofNat (0xE0 + code / 0x1000)
  else Char.ofNat (0xF0 + code / 0x40000)

/-- What would have been right, in words. -/
def Expected.describe : Expected → String
  | .character c => "'" ++ String.singleton c ++ "'"
  | .quote => "a quote"
  | .whitespace => "a whitespace"
  | .subsetOrEnd => "'[' or '>'"
  | .entityValue => "a quote, SYSTEM or PUBLIC"
  | .declarationEnd => "'>'"

/-- A cause and the place where it was noticed, in words. -/
def Cause.describe (cause : Cause) (place : String) : String :=
  match cause with
  | .unexpected expected found =>
      "expected " ++ expected.describe ++ " not '" ++ String.singleton (leadingByte found) ++
        "' at " ++ place
  | .missing text => "expected '" ++ text ++ "' at " ++ place
  | .unknownToken => "unknown token at " ++ place
  | .invalidName => "invalid name token at " ++ place
  | .invalidExternalId => "invalid ExternalID at " ++ place
  | .forbiddenCharacter c =>
      "a non-XML character " ++ Text.quoteChar c ++ " found at " ++ place
  | .hyphensInComment => "comment at " ++ place ++ " contains '--'"
  | .bracketsInText => "']]>' at " ++ place ++ " is not allowed inside a character data"
  | .misplacedDeclaration => "unexpected XML declaration at " ++ place
  | .malformedReference => "malformed entity reference at " ++ place
  | .unknownEntity name => "unknown entity reference '" ++ name ++ "' at " ++ place
  | .referenceLoop => "a possible entity reference loop is detected at " ++ place
  | .markupInAttribute => "unescaped '<' found at " ++ place
  | .wrongClosingTag expected found =>
      "expected '" ++ expected ++ "' tag, not '" ++ found ++ "' at " ++ place
  | .strayClosingTag => "unexpected close tag at " ++ place
  | .duplicateAttribute name => "attribute '" ++ name ++ "' at " ++ place ++ " is already defined"
  | .duplicateNamespace name => "namespace '" ++ name ++ "' at " ++ place ++ " is already defined"
  | .unknownNamespace name => "an unknown namespace prefix '" ++ name ++ "' at " ++ place
  | .reservedElementNamespace => "the 'xmlns' prefix is used at " ++ place ++ ", but it must not be"
  | .xmlBoundElsewhere => "'xml' namespace prefix mapped to wrong URI at " ++ place
  | .xmlNamespaceRebound => "the 'xml' namespace URI is used for not 'xml' prefix at " ++ place
  | .xmlnsNamespaceBound =>
      "the 'xmlns' URI is used at " ++ place ++ ", but it must not be declared"

/-- A fault in words. -/
def Fault.message : Fault → String
  | .noRoot => "the document does not have a root node"
  | .unclosedRoot => "the root node was opened but never closed"
  | .endOfText => "unexpected end of stream"
  | .located cause position =>
      cause.describe (toString position.line ++ ":" ++ toString position.column)

end TreeQuery.Markup
