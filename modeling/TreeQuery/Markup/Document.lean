import TreeQuery.Document.Arena
import TreeQuery.Failure
import TreeQuery.Markup.Reader

/-!
# Reading documents

A document is read from its declaration to the end of its root element and what may
follow it.  Comments and processing instructions are read and dropped, a document type
is read for the entities it declares, and texts that are blank throughout are no part of
the document.

Line ends are normalized while text is read: a carriage return, with or without a line
feed after it, becomes a line feed in content, and every kind of white space becomes a
space in attribute values.  Characters given by references are exempt, except inside of
entities.
-/

set_option autoImplicit false

namespace TreeQuery.Markup

open Text (Position)

/-! ## Line ends and white space -/

/-- Adds a character of the text to the characters before it, given backwards.  A
carriage return is kept until the next character shows what it ends. -/
def pushLine (before : List Char) (c : Char) (last : Bool) : List Char :=
  match before with
  | '\r' :: earlier =>
      if last && c = '\r' then '\n' :: '\n' :: earlier
      else if c = '\n' then '\n' :: earlier
      else c :: '\n' :: earlier
  | before => if last && c = '\r' then '\n' :: before else c :: before

/-- A text with its line ends normalized. -/
def normalizeLines : List Char → List Char → List Char
  | before, [] => before.reverse
  | before, c :: rest => normalizeLines (pushLine before c rest.isEmpty) rest

/-- A white space character of an attribute value is a space. -/
def asSpace (c : Char) : Char :=
  if c = '\n' || c = '\r' || c = '\t' then ' ' else c

/-! ## Attribute values -/

/-- Reads an attribute value up to the end of its text.  Inside of entities a character
reference must not stand for the start of a tag. -/
def attributeChars (levels : Nat) (nested : Option (Reading (List Char))) :
    Nat → Reading (List Char)
  | 0 => return []
  | limit + 1 => do
      match ← rest with
      | [] => return []
      | '&' :: _ =>
          let start ← here
          match ← reference with
          | .inl c =>
              if levels < entityDepth && c = '<' then stopAt start .markupInAttribute
              let others ← attributeChars levels nested limit
              return (if levels < entityDepth then asSpace c else c) :: others
          | .inr value =>
              let inside ← enterEntity levels nested value
              let others ← attributeChars levels nested limit
              return inside ++ others
      | c :: following =>
          skip 1
          let others ← attributeChars levels nested limit
          return if c = '\r' && following.head? = some '\n' then others else asSpace c :: others

/-- Reads an attribute value with the given number of levels of entities left. -/
def attributeValue : Nat → Reading (List Char)
  | 0 => do attributeChars 0 none ((← rest).length + 1)
  | levels + 1 => do
      attributeChars (levels + 1) (some (attributeValue levels)) ((← rest).length + 1)

/-! ## Comments, processing instructions and character sections -/

def comment : Reading Unit := do
  let start ← here
  skip 4
  let content ← runUpTo "-->"
  expectText "-->"
  if content.rest.getLast? = some '-' || occursIn "--".toList content.rest then
    stopAt start .hyphensInComment
  finishText

def processingInstruction : Reading Unit := do
  if ← comesNext "<?xml " then stop .misplacedDeclaration
  skip 2
  let _ ← name
  skipSpaces
  let _ ← runUpTo "?>"
  expectText "?>"
  finishText

def characterSection : Reading Unit := do
  skip 9
  let content ← runUpTo "]]>"
  expectText "]]>"
  addText (normalizeLines [] content.rest)

/-! ## Text -/

/-- Reads text up to its end, after characters given backwards, and adds it to the
document.  Outside of entities a character reference and the character after it are
taken as they are. -/
def textChars (levels : Nat) (expand : Cursor → Reading Unit) :
    Nat → List Char → Bool → Reading Unit
  | 0, before, _ => addText before.reverse
  | limit + 1, before, asIs => do
      match ← rest with
      | [] => addText before.reverse
      | '&' :: _ =>
          match ← reference with
          | .inl c =>
              if levels < entityDepth then
                textChars levels expand limit (pushLine before c (← rest).isEmpty) asIs
              else textChars levels expand limit (c :: before) true
          | .inr value =>
              addText before.reverse
              expand value
              textChars levels expand limit [] false
      | c :: following =>
          skip 1
          textChars levels expand limit
            (if asIs then c :: before else pushLine before c following.isEmpty) false

/-- Reads the text up to the next tag. -/
def text (levels : Nat) (expand : Cursor → Reading Unit) : Reading Unit := do
  let content ← runWhile fun rest => rest.head? ≠ some '<'
  if occursIn "]]>".toList content.rest then stop .bracketsInText
  elsewhere content (textChars levels expand (content.rest.length + 1) [] false)

/-! ## Tags -/

/-- Reads the attributes and the end of an opening tag; the value says whether the
element is open.  A tag that the text breaks off is not ended. -/
def tagAttributes (levels : Nat) : Nat → Reading Bool
  | 0 => return false
  | limit + 1 => do
      match ← rest with
      | [] => return false
      | first :: _ =>
          skipSpaces
          let start ← here
          let c ← current
          if c = '/' then
            skip 1
            expect '>'
            endTag true
            return false
          else if c = '>' then
            skip 1
            endTag false
            return true
          else
            unless isSpace first do stop (.unexpected .whitespace c)
            let (qualifier, name) ← qualifiedName
            equals
            let written ← quotedValue
            let value ← elsewhere written (attributeValue levels)
            giveAttribute ⟨qualifier, name, String.ofList value, start⟩
            tagAttributes levels limit

/-- Reads an opening tag; the value says whether the element is open. -/
def openingTag (levels : Nat) : Reading Bool := do
  let start ← here
  skip 1
  let (qualifier, name) ← qualifiedName
  startTag qualifier name start
  tagAttributes levels ((← rest).length + 1)

def closingTag : Reading Unit := do
  let start ← here
  skip 2
  let (qualifier, name) ← qualifiedName
  skipSpaces
  expect '>'
  closeElement qualifier name start

/-! ## Content -/

/-- Reads content up to the closing tag that matches its start, or to the end of the
text, given the number of elements opened inside of it. -/
def contentItems (levels : Nat) (expand : Cursor → Reading Unit) : Nat → Nat → Reading Unit
  | 0, _ => return
  | limit + 1, depth => do
      match ← rest with
      | [] => return
      | '<' :: '!' :: _ =>
          if ← comesNext "<!--" then comment
          else if ← comesNext "<![CDATA[" then characterSection
          else stop .unknownToken
          contentItems levels expand limit depth
      | '<' :: '?' :: _ =>
          processingInstruction
          contentItems levels expand limit depth
      | '<' :: '/' :: _ =>
          closingTag
          match depth with
          | 0 => return
          | depth + 1 => contentItems levels expand limit depth
      | ['<'] => stop .unknownToken
      | '<' :: _ =>
          let isOpen ← openingTag levels
          contentItems levels expand limit (if isOpen then depth + 1 else depth)
      | _ =>
          text levels expand
          contentItems levels expand limit depth

/-- Reads an entity as content; a closing tag in it needs an opening tag in it. -/
def entityContent (content : Reading Unit) : Reading Unit := do
  let tag := (← get).tag
  modify fun reader => { reader with tag := none }
  content
  modify fun reader => { reader with tag := tag }

/-- Reads content with the given number of levels of entities left. -/
def content : Nat → Reading Unit
  | 0 => do contentItems 0 (enterEntity 0 none) ((← rest).length + 1) 0
  | levels + 1 => do
      contentItems (levels + 1) (enterEntity (levels + 1) (some (entityContent (content levels))))
        ((← rest).length + 1) 0

/-! ## Document types -/

/-- Reads a quoted text that is not looked into. -/
def quotedText : Reading Unit := do
  let quote ← openingQuote
  let _ ← runOf (· ≠ quote)
  expect quote

/-- Reads where an external part of a document is, if that comes next. -/
def externalId : Reading Bool := do
  if ← comesNext "SYSTEM" then
    skip 6
    spaces
    quotedText
    return true
  else if ← comesNext "PUBLIC" then
    skip 6
    spaces
    quotedText
    spaces
    quotedText
    return true
  else return false

/-- Reads what an entity stands for, if that is part of the document. -/
def entityDefinition (isGeneral : Bool) : Reading (Option Cursor) := do
  let found ← current
  if found = '\x27' || found = '\x22' then
    let quote ← openingQuote
    let start ← here
    let value ← runOf (· ≠ quote)
    expect quote
    return some ⟨start, value⟩
  else if found = 'S' || found = 'P' then
    unless ← externalId do stop .invalidExternalId
    if isGeneral then
      skipSpaces
      if ← comesNext "NDATA" then
        skip 5
        spaces
        let _ ← nameOrEnd
    return none
  else stop (.unexpected .entityValue found)

def entityDeclaration : Reading Unit := do
  skip 8
  spaces
  let isParameter ← comesNext "%"
  if isParameter then
    skip 1
    spaces
  let name ← name
  spaces
  if let some value ← entityDefinition !isParameter then
    modify fun reader => { reader with entities := reader.entities ++ [(name, value)] }
  skipSpaces
  expect '>'

/-- Reads a declaration that is not looked into; it belongs to the document type that
starts at a position. -/
def otherDeclaration (start : Position) : Reading Unit := do
  let _ ← runOf (· ≠ '>')
  if (← rest).isEmpty then stopAt start .unknownToken
  expect '>'

/-- Reads the declarations of a document type up to its end. -/
def declarations (start : Position) : Nat → Reading Unit
  | 0 => return
  | limit + 1 => do
      if (← rest).isEmpty then return
      skipSpaces
      if ← comesNext "<!ENTITY" then
        entityDeclaration
        declarations start limit
      else if ← comesNext "<!--" then
        comment
        declarations start limit
      else if ← comesNext "<?" then
        processingInstruction
        declarations start limit
      else if ← comesNext "]" then
        skip 1
        skipSpaces
        let found ← current
        if found = '>' then skip 1 else stop (.unexpected .declarationEnd found)
      else if (← comesNext "<!ELEMENT") || (← comesNext "<!ATTLIST") ||
          (← comesNext "<!NOTATION") then
        otherDeclaration start
        declarations start limit
      else stop .unknownToken

def documentType : Reading Unit := do
  let start ← here
  skip 9
  spaces
  let _ ← nameOrEnd
  skipSpaces
  let _ ← externalId
  skipSpaces
  let found ← current
  if found ≠ '[' && found ≠ '>' then stop (.unexpected .subsetOrEnd found)
  skip 1
  if found = '[' then declarations start ((← rest).length + 1)

/-! ## Whole documents -/

/-- Reads white space of a declaration, which must be there unless the declaration ends. -/
def declarationSpaces : Reading Unit := do
  match ← rest with
  | [] => return
  | c :: _ =>
      if isSpace c then skipSpaces
      else unless ← comesNext "?>" do stop (.unexpected .whitespace c)

/-- Reads an attribute of a declaration; its value is not looked into. -/
def declarationAttribute : Reading Unit := do
  let _ ← qualifiedName
  equals
  let _ ← quotedValue

/-- Reads the declaration that a document may start with. -/
def declaration : Reading Unit := do
  skip 5
  declarationSpaces
  unless ← comesNext "version" do stop (.missing "version")
  declarationAttribute
  declarationSpaces
  if ← comesNext "encoding" then
    declarationAttribute
    declarationSpaces
  if ← comesNext "standalone" then declarationAttribute
  skipSpaces
  expectText "?>"

/-- Reads white space, comments and processing instructions. -/
def miscellaneous : Nat → Reading Unit
  | 0 => return
  | limit + 1 => do
      if (← rest).isEmpty then return
      skipSpaces
      if ← comesNext "<!--" then
        comment
        miscellaneous limit
      else if ← comesNext "<?" then
        processingInstruction
        miscellaneous limit

/-- Reads whatever may stand between the larger parts of a document. -/
def between : Reading Unit := do
  miscellaneous ((← rest).length + 1)
  skipSpaces

/-- Reads a whole document. -/
def document : Reading Unit := do
  if ← comesNext "\ufeff" then skip 1
  if ← comesNext "<?xml " then declaration
  between
  if ← comesNext "<!DOCTYPE" then
    documentType
    between
  if ← comesNext "<" then
    if ← openingTag entityDepth then content entityDepth
  miscellaneous ((← rest).length + 1)
  unless (← rest).isEmpty do stop .unknownToken
  finishText
  let reader ← get
  if reader.opened.isEmpty && !reader.finished.any Fragment.isElement then throw .noRoot
  unless reader.opened.isEmpty do throw .unclosedRoot

/-- The fragments of a document below its document node. -/
def parse (text : String) : Except Fault (List Fragment) :=
  match document.run (Reader.start text) with
  | .ok (_, reader) => .ok reader.finished.reverse
  | .error fault => .error fault

end TreeQuery.Markup

namespace TreeQuery

/-- The name under which failures mention a document without a name. -/
def unnamedDocument : String := "<inline>"

/-- The arena of a document, read from its text. -/
def Arena.load (name text : String) : Except Failure Arena :=
  match Markup.parse text with
  | .ok fragments => .ok (Arena.ofFragments fragments)
  | .error fault => .error (.malformed name fault)

/-- Reads a document from its text, under a name or under none. -/
def Document.load (uri : Option String) (text : String) : Except Failure Document :=
  (Arena.load (uri.getD unnamedDocument) text).map fun arena => ⟨uri, arena⟩

end TreeQuery
