import TreeQuery.Grammar.Expectation

/-!
# Parsers

A parser reads from a cursor and either matches, with a value and the cursor behind it,
or fails and leaves the cursor where it was.  Choices are ordered and final: the first
alternative that matches is taken, and nothing is tried again later.

Beside the cursor a parser keeps the attempts made so far: the furthest position at
which a rule was tried, and the rules tried in vain there.  Attempts survive failure,
so a text that does not match is reported where reading got furthest.  A rule that was
tried inside a rule at the same position is reported in place of the outer one when it
is the only one recorded in it; otherwise the outer rule stands for all of them.  What
must be absent is read with the roles of matching and failing exchanged.

The blanks between tokens are skipped by `blanks`, which the rules name wherever blanks
may stand.
-/

set_option autoImplicit false

namespace TreeQuery.Grammar

/-! ## Cursors and attempts -/

/-- The names of a constructor whose closing tag does not repeat its opening tag. -/
structure TagClash where
  opening : String
  closing : String
  deriving DecidableEq

/-- The characters read and to be read, and the first constructor read whose closing tag
does not repeat its opening tag. -/
structure Cursor where
  offset : Nat
  rest : List Char
  clash : Option TagClash
  deriving DecidableEq

/-- The cursor before the first character of a text. -/
def Cursor.start (text : String) : Cursor :=
  ⟨0, text.toList, none⟩

/-- The rules tried at the furthest position, in the order in which they were recorded. -/
structure Attempts where
  offset : Nat
  expected : List Rule
  unexpected : List Rule
  deriving DecidableEq

namespace Attempts

/-- No attempts yet. -/
def none : Attempts := ⟨0, [], []⟩

/-- How many attempts were recorded when a rule was entered. -/
structure Mark where
  expected : Nat
  unexpected : Nat

/-- The mark for a rule that is entered at a position: attempts recorded elsewhere do
not count. -/
def mark (attempts : Attempts) (offset : Nat) : Mark :=
  if offset = attempts.offset then ⟨attempts.expected.length, attempts.unexpected.length⟩
  else ⟨0, 0⟩

/-- The attempts from a position on: those of earlier positions are forgotten, and those
recorded at the position since the mark are dropped. -/
def settle (attempts : Attempts) (mark : Mark) (offset : Nat) : Attempts :=
  if offset = attempts.offset then
    ⟨offset, attempts.expected.take mark.expected, attempts.unexpected.take mark.unexpected⟩
  else if attempts.offset < offset then ⟨offset, [], []⟩
  else attempts

/-- Adds one rule to the attempts. -/
def push (attempts : Attempts) (rule : Rule) (negated : Bool) : Attempts :=
  if negated then ⟨attempts.offset, attempts.expected, attempts.unexpected ++ [rule]⟩
  else ⟨attempts.offset, attempts.expected ++ [rule], attempts.unexpected⟩

/-- Records that a rule entered at a position did not turn out as it should.  The rule
stands for all attempts recorded inside it at that position, unless there is exactly
one. -/
def record (attempts : Attempts) (mark : Mark) (offset : Nat) (rule : Rule) (negated : Bool) :
    Attempts :=
  let here := if offset = attempts.offset then
    attempts.expected.length + attempts.unexpected.length else 0
  if here = mark.expected + mark.unexpected + 1 then attempts
  else
    let settled := attempts.settle mark offset
    if offset = settled.offset then settled.push rule negated else settled

end Attempts

/-! ## Outcomes and parsers -/

/-- What reading from a cursor comes to. -/
inductive Outcome (α : Type) where
  | matched (value : α) (next : Cursor) (attempts : Attempts)
  | failed (attempts : Attempts)

/-- A way of reading, given whether matching is what must not happen. -/
def Parser (α : Type) : Type :=
  Bool → Cursor → Attempts → Outcome α

namespace Parser

variable {α β : Type}

/-- Matches without reading. -/
def succeed (value : α) : Parser α := fun _ cursor attempts =>
  .matched value cursor attempts

/-- Fails without reading. -/
def fail : Parser α := fun _ _ attempts => .failed attempts

/-- Reads with one parser and then with a second that depends on the value of the first. -/
def andThen (first : Parser α) (second : α → Parser β) : Parser β :=
  fun negated cursor attempts =>
    match first negated cursor attempts with
    | .matched value next attempts => second value negated next attempts
    | .failed attempts => .failed attempts

instance : Monad Parser where
  pure := succeed
  bind := andThen

/-- Reads with the first parser that matches. -/
def orElse (first second : Parser α) : Parser α := fun negated cursor attempts =>
  match first negated cursor attempts with
  | .matched value next attempts => .matched value next attempts
  | .failed attempts => second negated cursor attempts

/-- Reads with the first parser of a list that matches. -/
def firstOf : List (Parser α) → Parser α
  | [] => fail
  | parser :: others => orElse parser (firstOf others)

/-- Reads with a parser if it matches, and otherwise nothing. -/
def optional (parser : Parser α) : Parser (Option α) :=
  orElse (do return some (← parser)) (succeed none)

/-- Matches without reading exactly where a parser fails. -/
def absent (parser : Parser α) : Parser Unit := fun negated cursor attempts =>
  match parser (!negated) cursor attempts with
  | .matched _ _ attempts => .failed attempts
  | .failed attempts => .matched () cursor attempts

/-- Reads with a parser as a rule that diagnostics can name. -/
def rule (name : Rule) (parser : Parser α) : Parser α := fun negated cursor attempts =>
  let mark := attempts.mark cursor.offset
  match parser negated cursor attempts with
  | .matched value next attempts =>
      .matched value next
        (if negated then attempts.record mark cursor.offset name negated else attempts)
  | .failed attempts =>
      .failed (if negated then attempts else attempts.record mark cursor.offset name negated)

/-! ## Characters -/

/-- Reads one character of a class. -/
def character (member : Char → Bool) : Parser Char := fun _ cursor attempts =>
  match cursor.rest with
  | [] => .failed attempts
  | c :: rest =>
      if member c then .matched c ⟨cursor.offset + 1, rest, cursor.clash⟩ attempts
      else .failed attempts

/-- Reads the longest run of characters of a class. -/
def charactersWhile (member : Char → Bool) : Parser (List Char) := fun _ cursor attempts =>
  let run := cursor.rest.takeWhile member
  .matched run ⟨cursor.offset + run.length, cursor.rest.dropWhile member, cursor.clash⟩ attempts

/-- Reads a given text. -/
def literal (text : String) : Parser Unit := fun _ cursor attempts =>
  match text.toList.isPrefixOf? cursor.rest with
  | some rest => .matched () ⟨cursor.offset + text.length, rest, cursor.clash⟩ attempts
  | none => .failed attempts

/-- The characters that may stand between tokens. -/
def isSeparator (c : Char) : Bool :=
  c = ' ' || c = '\t' || c = '\r' || c = '\n'

/-- Skips the characters that may stand between tokens. -/
def blanks : Parser Unit := do
  let _ ← charactersWhile isSeparator

/-- Matches at the end of the text only. -/
def endOfInput : Parser Unit :=
  rule .endOfInput fun _ cursor attempts =>
    match cursor.rest with
    | [] => .matched () cursor attempts
    | _ :: _ => .failed attempts

/-! ## Repetition -/

/-- Reads with a parser as often as it matches, at most the given number of times. -/
def repeated (parser : Parser α) : Nat → Parser (List α)
  | 0 => succeed []
  | limit + 1 =>
      orElse (do
        let value ← parser
        let values ← repeated parser limit
        return value :: values) (succeed [])

/-- Reads with a parser as often as it matches, with blanks allowed in between.  A
parser that reads something each time cannot match more often than there are characters
left. -/
def many (parser : Parser α) : Parser (List α) := fun negated cursor attempts =>
  let several : Parser (List α) := orElse (do
    let value ← parser
    let values ← repeated (do blanks; parser) cursor.rest.length
    return value :: values) (succeed [])
  several negated cursor attempts

/-- One or more items with separators between them: the first item and the others. -/
def separated (separator : Parser Unit) (item : Parser α) : Parser (α × List α) := do
  let first ← item
  blanks
  let others ← many (do separator; blanks; item)
  return (first, others)

/-- Notes the names of a finished constructor; only the first clash is kept. -/
def noteTags (opening closing : String) : Parser Unit := fun _ cursor attempts =>
  let clash := match cursor.clash with
    | some clash => some clash
    | none => if opening = closing then none else some ⟨opening, closing⟩
  .matched () ⟨cursor.offset, cursor.rest, clash⟩ attempts

/-! ## Whole texts -/

/-- Reads a whole text as one rule, with blanks allowed around its content. -/
def whole (name : Rule) (parser : Parser α) : Parser α :=
  rule name do
    blanks
    let value ← parser
    blanks
    endOfInput
    return value

end Parser

end TreeQuery.Grammar
