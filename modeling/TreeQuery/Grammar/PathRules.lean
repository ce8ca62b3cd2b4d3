import TreeQuery.Grammar.Token

/-!
# The rules of paths and filters

Paths and filters nest: a path holds paths in parentheses and filters in brackets.  The
rules of one nesting level are written over the parsers of the level inside it, and
`pathLevel` stacks a given number of levels.  A sign or a keyword is read before a level
is entered, so a text needs no more levels than it has characters.
-/

set_option autoImplicit false

namespace TreeQuery.Grammar

open TreeQuery.Grammar.Parser

/-- The parsers of one nesting level. -/
structure PathLevel where
  path : Parser Path
  filter : Parser Filter
  negation : Parser Filter

/-- The level at which nothing is read any more. -/
def PathLevel.innermost : PathLevel := ⟨fail, fail, fail⟩

namespace PathLevel

variable (inner : PathLevel)

/-! ## Paths -/

def pathAtom : Parser Path :=
  rule .pathAtom <| firstOf [
    rule .textTest do
      literal "text"
      blanks
      literal "("
      blanks
      literal ")"
      return Path.text,
    rule .parentStep do literal ".."; return Path.parent,
    rule .currentStep do literal "."; return Path.current,
    rule .wildcard do literal "*"; return Path.wildcard,
    rule .attributeStep do
      literal "@"
      return .attribute (← identifier),
    rule .pathParentheses do
      return .parenthesized (← enclosed "(" inner.path ")"),
    rule .tagStep do
      absent reserved
      blanks
      return .tag (← identifier)]

def pathFiltered : Parser Path :=
  rule .pathFiltered do
    let atom ← inner.pathAtom
    blanks
    let filters ← many (enclosed "[" inner.filter "]")
    return filters.foldl .filtered atom

def pathSteps : Parser Path :=
  rule .pathSteps do
    let first ← inner.pathFiltered
    blanks
    let others ← many do
      let axis ← axis
      blanks
      return (axis, ← inner.pathFiltered)
    return others.foldl (fun left (axis, right) => .step left axis right) first

/-- Paths of the level outside, nested to the left at commas. -/
def outerPath : Parser Path :=
  rule .path do
    let (first, others) ← separated comma inner.pathSteps
    return others.foldl .pair first

/-! ## Filters -/

def filterPrimary : Parser Filter :=
  rule .filterPrimary <| firstOf [
    rule .filterConstant do
      let path ← inner.outerPath
      blanks
      valueOperator
      blanks
      return .constantEq path (← stringLiteral),
    rule .filterComparison do
      let left ← inner.outerPath
      blanks
      let comparison ← comparison
      blanks
      let right ← inner.outerPath
      return match comparison with
        | .identity => .identityEq left right
        | .value => .valueEq left right,
    rule .filterParentheses do
      let filter ← enclosed "(" inner.filter ")"
      blanks
      absent <| firstOf [do let _ ← axis, literal "[", comma]
      return .parenthesized filter,
    rule .filterPath do
      return .path (← inner.outerPath)]

/-- Negations of the level outside. -/
def outerNegation : Parser Filter :=
  rule .filterNot <| firstOf [
    do
      keyword .notKeyword "not"
      blanks
      return .not (← inner.negation),
    inner.filterPrimary]

def filterAnd : Parser Filter :=
  rule .filterAnd do
    let (first, others) ← separated (keyword .andKeyword "and") inner.outerNegation
    return others.foldl .and first

def filterOr : Parser Filter :=
  rule .filterOr do
    let (first, others) ← separated (keyword .orKeyword "or") inner.filterAnd
    return others.foldl .or first

/-- Filters of the level outside. -/
def outerFilter : Parser Filter :=
  rule .filter inner.filterOr

/-- The level outside a level. -/
def outside : PathLevel :=
  ⟨inner.outerPath, inner.outerFilter, inner.outerNegation⟩

end PathLevel

/-- A number of nesting levels, stacked. -/
def pathLevel : Nat → PathLevel
  | 0 => .innermost
  | depth + 1 => (pathLevel depth).outside

/-! ## Document paths -/

def documentCall : Parser String :=
  rule .documentCall do
    docKeyword
    blanks
    enclosed "(" stringLiteral ")"

/-- A path from the root of a named document, given the parser of relative paths. -/
def documentPath (path : Parser Path) : Parser DocumentPath :=
  rule .documentPath do
    let document ← documentCall
    blanks
    let axis ← axis
    blanks
    return ⟨document, axis, ← path⟩

end TreeQuery.Grammar
