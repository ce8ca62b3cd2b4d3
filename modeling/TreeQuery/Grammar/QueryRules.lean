import TreeQuery.Grammar.PathRules
import TreeQuery.Query.Basic

/-!
# The rules of queries and conditions

Queries and conditions nest through parentheses, braces and clauses.  As for paths, the
rules of one nesting level are written over the parsers of the level inside it; before a
level is entered, a sign or a keyword is read.  A single query is a query without a
comma at its top; it is what a clause binds, what a join joins and what a condition
compares.
-/

set_option autoImplicit false

namespace TreeQuery.Grammar

open TreeQuery.Grammar.Parser

/-- The parsers of one nesting level, beside the parser of the paths at every level. -/
structure QueryLevel where
  path : Parser Path
  query : Parser Query
  single : Parser Query
  condition : Parser Condition
  negation : Parser Condition

/-- The level at which no query and no condition is read any more. -/
def QueryLevel.innermost (path : Parser Path) : QueryLevel := ⟨path, fail, fail, fail, fail⟩

namespace QueryLevel

variable (inner : QueryLevel)

/-! ## Clauses -/

def inBinding : Parser Binding :=
  rule .inBinding do
    let name ← reference
    blanks
    keyword .inKeyword "in"
    blanks
    return ⟨name, ← inner.single⟩

def letBinding : Parser Binding :=
  rule .letBinding do
    let name ← reference
    blanks
    literal ":="
    blanks
    return ⟨name, ← inner.single⟩

/-- One or more bindings with commas between them. -/
def bindings (binding : Parser Binding) : Parser (List Binding) := do
  let (first, others) ← separated comma binding
  return first :: others

def forClause : Parser (List Binding) :=
  rule .forClause do
    keyword .forKeyword "for"
    blanks
    bindings inner.inBinding

def letClause : Parser (List Binding) :=
  rule .letClause do
    keyword .letKeyword "let"
    blanks
    bindings inner.letBinding

def whereClause : Parser Condition :=
  rule .whereClause do
    keyword .whereKeyword "where"
    blanks
    inner.condition

def returnClause : Parser Query :=
  rule .returnClause do
    keyword .returnKeyword "return"
    blanks
    inner.query

def flwr : Parser Query :=
  rule .flwr do
    let bindings ← inner.forClause
    blanks
    let lets ← optional inner.letClause
    blanks
    let condition ← optional inner.whereClause
    blanks
    return .flwr bindings (lets.getD []) condition (← inner.returnClause)

def letIn : Parser Query :=
  rule .letIn do
    let bindings ← inner.letClause
    blanks
    return .letIn bindings (← inner.query)

/-! ## Primary queries -/

def tagList : Parser (List String) :=
  rule .tagList do
    let tags ← enclosed "[" (optional (separated comma identifier)) "]"
    return match tags with
      | some (first, others) => first :: others
      | none => []

def join : Parser Query :=
  rule .join do
    keyword .joinKeyword "join"
    blanks
    literal "("
    blanks
    let left ← inner.single
    blanks
    comma
    blanks
    let right ← inner.single
    blanks
    comma
    blanks
    let leftTags ← tagList
    blanks
    comma
    blanks
    let rightTags ← tagList
    blanks
    literal ")"
    return .join left right leftTags rightTags

/-- A constructor; that its closing tag repeats its opening tag is noted, not required. -/
def element : Parser Query :=
  rule .element do
    literal "<"
    blanks
    let opening ← identifier
    blanks
    literal ">"
    blanks
    let body ← enclosed "\x7b" inner.query "\x7d"
    blanks
    literal "<"
    blanks
    literal "/"
    blanks
    let closing ← identifier
    blanks
    literal ">"
    noteTags opening closing
    return .element opening body

def queryPrimary : Parser Query :=
  rule .queryPrimary <| firstOf [
    do return .document (← documentPath inner.path),
    do return .reference (← reference),
    do return .constant (← stringLiteral),
    inner.join,
    inner.element,
    rule .queryParentheses do
      return .parenthesized (← enclosed "(" inner.query ")")]

def queryPath : Parser Query :=
  rule .queryPath do
    let base ← inner.queryPrimary
    blanks
    let continuation ← optional do
      let axis ← axis
      blanks
      return (axis, ← inner.path)
    return match continuation with
      | some (axis, path) => .step base axis path
      | none => base

/-- Single queries of the level outside. -/
def outerSingle : Parser Query :=
  rule .querySingle <| firstOf [inner.flwr, inner.letIn, inner.queryPath]

/-- Queries of the level outside, nested to the left at commas. -/
def outerQuery : Parser Query :=
  rule .query do
    let (first, others) ← separated comma inner.outerSingle
    return others.foldl .pair first

/-! ## Conditions -/

def conditionPrimary : Parser Condition :=
  rule .conditionPrimary <| firstOf [
    rule .conditionEmpty do
      keyword .emptyKeyword "empty"
      blanks
      return .empty (← enclosed "(" inner.query ")"),
    rule .conditionSome do
      keyword .someKeyword "some"
      blanks
      let bindings ← bindings inner.inBinding
      blanks
      keyword .satisfiesKeyword "satisfies"
      blanks
      return .someSatisfies bindings (← inner.condition),
    rule .conditionComparison do
      let left ← inner.outerSingle
      blanks
      let comparison ← comparison
      blanks
      let right ← inner.outerSingle
      return match comparison with
        | .identity => .identityEq left right
        | .value => .valueEq left right,
    rule .conditionParentheses do
      return .parenthesized (← enclosed "(" inner.condition ")")]

/-- Negations of the level outside. -/
def outerNegation : Parser Condition :=
  rule .conditionNot <| firstOf [
    do
      keyword .notKeyword "not"
      blanks
      return .not (← inner.negation),
    inner.conditionPrimary]

def conditionAnd : Parser Condition :=
  rule .conditionAnd do
    let (first, others) ← separated (keyword .andKeyword "and") inner.outerNegation
    return others.foldl .and first

def conditionOr : Parser Condition :=
  rule .conditionOr do
    let (first, others) ← separated (keyword .orKeyword "or") inner.conditionAnd
    return others.foldl .or first

/-- Conditions of the level outside. -/
def outerCondition : Parser Condition :=
  rule .condition inner.conditionOr

/-- The level outside a level. -/
def outside : QueryLevel :=
  ⟨inner.path, inner.outerQuery, inner.outerSingle, inner.outerCondition, inner.outerNegation⟩

end QueryLevel

/-- A number of nesting levels, stacked. -/
def queryLevel (path : Parser Path) : Nat → QueryLevel
  | 0 => .innermost path
  | depth + 1 => (queryLevel path depth).outside

end TreeQuery.Grammar
