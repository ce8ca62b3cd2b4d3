import TreeQuery.Failure
import TreeQuery.Grammar.QueryRules

/-!
# Parsing whole texts

`DocumentPath.parse` and `Query.parse` read a text from its first to its last character.
A text outside the grammar is reported at the furthest position tried.  A text inside
the grammar can still hold constructors whose tags clash; the first of them is reported,
and only then, so that a mismatch of the whole text comes before any clash in it.
-/

set_option autoImplicit false

namespace TreeQuery

open Grammar

/-- Reads a whole text with a parser. -/
def Grammar.Parser.run {α : Type} (parser : Parser α) (text : String) : Except Failure α :=
  match parser false (Cursor.start text) Attempts.none with
  | .matched value next _ =>
      match next.clash with
      | none => .ok value
      | some clash => .error (.tagClash clash)
  | .failed attempts =>
      .error (.ungrammatical ⟨Text.Position.ofOffset text attempts.offset,
        ⟨attempts.expected, attempts.unexpected⟩⟩)

/-- The nesting levels that suffice for a text: a character is read before each. -/
def Grammar.levelsFor (text : String) : Nat := text.length + 1

/-- The parser of relative paths for a text. -/
def Grammar.pathFor (text : String) : Parser Path := (pathLevel (levelsFor text)).path

/-- Reads a document path. -/
def DocumentPath.parse (text : String) : Except Failure DocumentPath :=
  (Parser.whole .wholePath (documentPath (pathFor text))).run text

/-- Reads a query. -/
def Query.parse (text : String) : Except Failure Query :=
  (Parser.whole .wholeQuery (queryLevel (pathFor text) (levelsFor text)).query).run text

end TreeQuery
