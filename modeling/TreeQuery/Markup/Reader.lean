import TreeQuery.Document.Fragment
import TreeQuery.Markup.Character
import TreeQuery.Markup.Fault
import TreeQuery.Text.Blank

/-!
# Reading markup

A reader has a cursor into the text and the document as far as it has been built.  The
operations of this module read single tokens; each either moves the cursor behind what
it has read or stops with a fault.

The part of the document that is under construction consists of the open elements, each
with its finished children, of the text that is still growing, and of the opening tag
that is being read.
-/

set_option autoImplicit false

namespace TreeQuery.Markup

open Text (Position)

/-! ## State -/

/-- The characters still to be read, and the position of the first of them. -/
structure Cursor where
  position : Position
  rest : List Char

/-- The name of a namespace in scope; the default namespace has no name. -/
structure Declaration where
  name : Option String
  uri : String

/-- An attribute of the tag that is being read. -/
structure TagAttribute where
  qualifier : String
  name : String
  value : String
  position : Position

/-- The name of the tag that is being read, and where it starts. -/
structure TagName where
  qualifier : String
  name : String
  position : Position

/-- An element whose closing tag has not been read, with its children backwards. -/
structure OpenElement where
  qualifier : String
  name : String
  attributes : List (String × String)
  namespaces : List Declaration
  children : List Fragment

/-- Where reading is, and what has been built so far. -/
structure Reader where
  cursor : Cursor
  /-- The values of the entities declared, first declaration first. -/
  entities : List (String × Cursor)
  /-- How many references were followed inside the outermost entity. -/
  references : Nat
  /-- The open elements, innermost first. -/
  opened : List OpenElement
  /-- The finished elements and texts outside of all open ones, backwards. -/
  finished : List Fragment
  /-- The text that may still grow. -/
  text : String
  tag : Option TagName
  attributes : List TagAttribute
  declarations : List Declaration

/-- The reader before the first character of a text. -/
def Reader.start (text : String) : Reader :=
  ⟨⟨.start, text.toList⟩, [], 0, [], [], "", none, [], []⟩

/-- A step of reading. -/
abbrev Reading : Type → Type := StateT Reader (Except Fault)

/-! ## The cursor -/

/-- The position of the next character. -/
def here : Reading Position := return (← get).cursor.position

/-- The characters still to be read. -/
def rest : Reading (List Char) := return (← get).cursor.rest

/-- Moves the cursor. -/
def moveTo (cursor : Cursor) : Reading Unit := modify fun reader => { reader with cursor := cursor }

/-- Stops with a cause at a position. -/
def stopAt {α : Type} (position : Position) (cause : Cause) : Reading α :=
  throw (.located cause position)

/-- Stops with a cause at the next character. -/
def stop {α : Type} (cause : Cause) : Reading α := do stopAt (← here) cause

/-- Does something with the cursor elsewhere, and puts it back. -/
def elsewhere {α : Type} (cursor : Cursor) (reading : Reading α) : Reading α := do
  let back := (← get).cursor
  moveTo cursor
  let value ← reading
  moveTo back
  return value

/-- The cursor behind a number of characters. -/
def Cursor.drop (cursor : Cursor) (count : Nat) : Cursor :=
  ⟨(cursor.rest.take count).foldl Position.advance cursor.position, cursor.rest.drop count⟩

/-- Skips a number of characters. -/
def skip (count : Nat) : Reading Unit := do moveTo ((← get).cursor.drop count)

/-- Whether a text comes next. -/
def comesNext (text : String) : Reading Bool := return text.toList.isPrefixOf (← rest)

/-- The next character, which must be there. -/
def current : Reading Char := do
  match ← rest with
  | c :: _ => return c
  | [] => throw .endOfText

/-- Reads the longest run of characters of a class. -/
def runOf (member : Char → Bool) : Reading (List Char) := do
  let run := (← rest).takeWhile member
  skip run.length
  return run

/-- The characters up to the first place where reading does not go on, each of which a
document may hold, and the cursor there. -/
def scan (goesOn : List Char → Bool) : List Char → Position → Except Fault (List Char × Cursor)
  | [], position => .ok ([], ⟨position, []⟩)
  | c :: rest, position =>
      if !isDocumentChar c then .error (.located (.forbiddenCharacter c) position)
      else if goesOn (c :: rest) then
        match scan goesOn rest (position.advance c) with
        | .ok (run, cursor) => .ok (c :: run, cursor)
        | .error fault => .error fault
      else .ok ([], ⟨position, c :: rest⟩)

/-- Reads characters that a document may hold while reading goes on; the value is a
cursor over exactly these characters. -/
def runWhile (goesOn : List Char → Bool) : Reading Cursor := do
  let cursor := (← get).cursor
  let (run, next) ← scan goesOn cursor.rest cursor.position
  moveTo next
  return ⟨cursor.position, run⟩

/-- Whether a text occurs in another. -/
def occursIn (text : List Char) : List Char → Bool
  | [] => text.isEmpty
  | c :: rest => text.isPrefixOf (c :: rest) || occursIn text rest

/-- Reads characters that a document may hold up to a text. -/
def runUpTo (text : String) : Reading Cursor :=
  runWhile fun rest => !text.toList.isPrefixOf rest

/-! ## Tokens -/

/-- Reads one given character. -/
def expect (c : Char) : Reading Unit := do
  let found ← current
  if found = c then skip 1 else stop (.unexpected (.character c) found)

/-- Reads a given text. -/
def expectText (text : String) : Reading Unit := do
  if ← comesNext text then skip text.length else stop (.missing text)

def skipSpaces : Reading Unit := do
  let _ ← runOf isSpace

/-- Reads white space, of which there must be some. -/
def spaces : Reading Unit := do
  let found ← current
  if isSpace found then skipSpaces else stop (.unexpected .whitespace found)

/-- Reads an equals sign with white space around it. -/
def equals : Reading Unit := do
  skipSpaces
  expect '='
  skipSpaces

/-- Reads a single or double quote. -/
def openingQuote : Reading Char := do
  let found ← current
  if found = '\x27' || found = '\x22' then
    skip 1
    return found
  else stop (.unexpected .quote found)

/-- Reads a name that may have colons in it, or nothing at the end of the text. -/
def nameOrEnd : Reading (List Char) := do
  match ← rest with
  | [] => return []
  | c :: _ =>
      if startsName c || c = ':' then runOf fun c => continuesName c || c = ':'
      else stop .invalidName

/-- Reads a name that may have colons in it. -/
def name : Reading String := do
  let run ← nameOrEnd
  if run.isEmpty then stop .invalidName
  return String.ofList run

/-- Whether a part of a qualified name starts as it should. -/
def wellStarted (part : List Char) : Bool :=
  match part with
  | c :: _ => startsName c
  | [] => false

/-- Reads a qualified name: its qualifier, which may be absent, and its local part. -/
def qualifiedName : Reading (String × String) := do
  let start ← here
  let first ← runOf continuesName
  if ← comesNext ":" then
    skip 1
    let second ← runOf continuesName
    if ← comesNext ":" then stopAt start .invalidName
    unless first.isEmpty || wellStarted first do stopAt start .invalidName
    unless wellStarted second do stopAt start .invalidName
    return (String.ofList first, String.ofList second)
  else
    unless wellStarted first do stopAt start .invalidName
    return ("", String.ofList first)

/-- Reads a value in quotes; a tag must not start in it. -/
def quotedValue : Reading Cursor := do
  let quote ← openingQuote
  let value ← runWhile fun rest => rest.head? ≠ some quote && rest.head? ≠ some '<'
  expect quote
  return value

/-! ## References -/

/-- What a reference stands for. -/
inductive Reference where
  | character (c : Char)
  | entity (name : String)

/-- The value of a digit to a base up to sixteen. -/
def digitValue (c : Char) : Nat :=
  if '0' ≤ c && c ≤ '9' then c.toNat - '0'.toNat
  else if 'a' ≤ c && c ≤ 'f' then c.toNat - 'a'.toNat + 10
  else c.toNat - 'A'.toNat + 10

/-- The number that digits write. -/
def digitsValue (base : Nat) (digits : List Char) : Nat :=
  digits.foldl (fun number digit => base * number + digitValue digit) 0

def isDecimalDigit (c : Char) : Bool := '0' ≤ c && c ≤ '9'

def isHexadecimalDigit (c : Char) : Bool :=
  isDecimalDigit c || ('a' ≤ c && c ≤ 'f') || ('A' ≤ c && c ≤ 'F')

/-- The character that a number refers to: numbers beyond thirty-two bits refer to none,
other numbers that are no code points to the replacement character. -/
def referencedChar? (base : Nat) (digits : List Char) : Option Char :=
  if digits.isEmpty then none
  else
    let number := digitsValue base digits
    if UInt32.size ≤ number then none
    else
      let c := if number.isValidChar then Char.ofNat number else '\ufffd'
      if isDocumentChar c then some c else none

/-- What a name between an ampersand and a semicolon refers to. -/
def namedReference (name : String) : Reference :=
  match name with
  | "lt" => .character '<'
  | "gt" => .character '>'
  | "amp" => .character '&'
  | "apos" => .character '\x27'
  | "quot" => .character '\x22'
  | name => .entity name

/-- A reference at the start of a text, and the number of its characters. -/
def reference? (text : List Char) : Option (Reference × Nat) :=
  let finished := fun (reference : Reference) (length : Nat) =>
    if (text.drop length).head? = some ';' then some (reference, length + 1) else none
  match text with
  | '&' :: '#' :: 'x' :: rest =>
      let digits := rest.takeWhile isHexadecimalDigit
      (referencedChar? 16 digits).bind fun c => finished (.character c) (digits.length + 3)
  | '&' :: '#' :: rest =>
      let digits := rest.takeWhile isDecimalDigit
      (referencedChar? 10 digits).bind fun c => finished (.character c) (digits.length + 2)
  | '&' :: c :: rest =>
      if startsName c || c = ':' then
        let run := c :: rest.takeWhile fun c => continuesName c || c = ':'
        finished (namedReference (String.ofList run)) (run.length + 1)
      else none
  | _ => none

/-- Reads a reference; a reference to an entity is read as the value of the entity. -/
def reference : Reading (Char ⊕ Cursor) := do
  match reference? (← rest) with
  | none => stop .malformedReference
  | some (.character c, length) =>
      skip length
      return .inl c
  | some (.entity name, length) =>
      match (← get).entities.lookup name with
      | none => stop (.unknownEntity name)
      | some value =>
          skip length
          return .inr value

/-- How deeply entities may be nested in each other. -/
def entityDepth : Nat := 10

/-- How many references may be followed inside one entity. -/
def referenceLimit : Nat := 255

/-- Follows a reference to an entity, given how many levels of entities are left and how
to read one level further in, if there is one.  References are counted inside of
entities only. -/
def enterEntity {α : Type} (levels : Nat) (nested : Option (Reading α)) (value : Cursor) :
    Reading α := do
  if levels < entityDepth then
    if (← get).references = referenceLimit then stop .referenceLoop
    modify fun reader => { reader with references := reader.references + 1 }
  match nested with
  | none => stop .referenceLoop
  | some reading =>
      let value ← elsewhere value reading
      if levels = entityDepth then modify fun reader => { reader with references := 0 }
      return value

/-! ## Building -/

/-- Adds a finished child to the innermost open element. -/
def addChild (child : Fragment) : Reading Unit :=
  modify fun reader =>
    match reader.opened with
    | [] => { reader with finished := child :: reader.finished }
    | element :: outer =>
        { reader with opened := { element with children := child :: element.children } :: outer }

/-- Adds to the text that is growing. -/
def addText (text : List Char) : Reading Unit :=
  modify fun reader => { reader with text := reader.text ++ String.ofList text }

/-- Finishes the text that was growing; a blank text is dropped. -/
def finishText : Reading Unit := do
  let text := (← get).text
  unless Text.allBlank text do addChild (.text text)
  modify fun reader => { reader with text := "" }

/-- A qualified name as it is written. -/
def writtenName (qualifier name : String) : String :=
  if qualifier.isEmpty then name else qualifier ++ ":" ++ name

def xmlNamespace : String := "http://www.w3.org/XML/1998/namespace"

def xmlnsNamespace : String := "http://www.w3.org/2000/xmlns/"

/-- Starts an opening tag at a position. -/
def startTag (qualifier name : String) (position : Position) : Reading Unit := do
  finishText
  if qualifier = "xmlns" then stopAt (position.advance '<') .reservedElementNamespace
  modify fun reader => { reader with tag := some ⟨qualifier, name, position⟩ }

/-- Declares a namespace for the tag that is being read. -/
def declareNamespace (name : Option String) (uri : String) : Reading Unit :=
  modify fun reader => { reader with declarations := reader.declarations ++ [⟨name, uri⟩] }

/-- Gives the tag that is being read an attribute or a namespace. -/
def giveAttribute (given : TagAttribute) : Reading Unit := do
  let refuse := fun cause => (stopAt given.position cause : Reading Unit)
  let uri := given.value
  if given.qualifier = "xmlns" then
    if uri = xmlnsNamespace then refuse .xmlnsNamespaceBound
    if given.name = "xml" then
      if uri ≠ xmlNamespace then refuse .xmlBoundElsewhere
    else if uri = xmlNamespace then refuse .xmlNamespaceRebound
    if (← get).declarations.any (·.name == some given.name) then
      refuse (.duplicateNamespace given.name)
    if uri ≠ xmlNamespace then declareNamespace (some given.name) uri
  else if given.name = "xmlns" then
    if uri = xmlNamespace then refuse .xmlNamespaceRebound
    if uri = xmlnsNamespace then refuse .xmlnsNamespaceBound
    declareNamespace none uri
  else modify fun reader => { reader with attributes := reader.attributes ++ [given] }

/-- The namespaces in scope in the tag that is being read: its own, and those around it
that it does not declare anew. -/
def Reader.namespaces (reader : Reader) : List Declaration :=
  let around := match reader.opened with
    | [] => []
    | element :: _ => element.namespaces
  reader.declarations ++ around.filter fun declaration =>
    !reader.declarations.any (·.name == declaration.name)

/-- The namespace that a qualifier stands for. -/
def namespaceOf (namespaces : List Declaration) (qualifier : String) (position : Position) :
    Except Fault (Option String) :=
  if qualifier.isEmpty then .ok none
  else match namespaces.find? (·.name == some qualifier) with
    | some declaration => .ok (some declaration.uri)
    | none => .error (.located (.unknownNamespace qualifier) position)

/-- The attributes of a tag, given the expanded names of those before them.  No two have
both namespace and local name in common. -/
def distinctAttributes (namespaces : List Declaration) :
    List (Option String × String) → List TagAttribute → Except Fault (List (String × String))
  | _, [] => .ok []
  | earlier, next :: rest => do
      let uri ← if next.qualifier = "xml" then .ok (some xmlNamespace)
        else namespaceOf namespaces next.qualifier next.position
      if earlier.contains (uri, next.name) then
        .error (.located (.duplicateAttribute next.name) next.position)
      let others ← distinctAttributes namespaces ((uri, next.name) :: earlier) rest
      return (next.name, next.value) :: others

/-- Takes the attributes and the namespaces of the tag that has been read. -/
def takeAttributes : Reading (List (String × String) × List Declaration) := do
  let reader ← get
  let namespaces := reader.namespaces
  let attributes ← distinctAttributes namespaces [] reader.attributes
  set { reader with attributes := [], declarations := [] }
  return (attributes, namespaces)

/-- Ends an opening tag; the element is open from now on unless it is empty. -/
def endTag (isEmpty : Bool) : Reading Unit := do
  finishText
  let (attributes, namespaces) ← takeAttributes
  match (← get).tag with
  | none => return
  | some tag =>
      let _ ← namespaceOf namespaces tag.qualifier (tag.position.advance '<')
      if isEmpty then addChild (.element tag.name attributes [])
      else
        modify fun reader => { reader with
          opened := ⟨tag.qualifier, tag.name, attributes, namespaces, []⟩ :: reader.opened }

/-- Closes the innermost open element with a tag at a position. -/
def closeElement (qualifier name : String) (position : Position) : Reading Unit := do
  finishText
  if (← get).tag.isNone then stopAt position .strayClosingTag
  let _ ← takeAttributes
  match (← get).opened with
  | [] => stopAt position .strayClosingTag
  | element :: outer =>
      if qualifier ≠ element.qualifier || name ≠ element.name then
        stopAt position (.wrongClosingTag (writtenName element.qualifier element.name)
          (writtenName qualifier name))
      modify fun reader => { reader with opened := outer }
      addChild (.element element.name element.attributes element.children.reverse)

end TreeQuery.Markup
