import TreeQuery.Grammar.QueryRules

/-!
# Parse trees

A text can be read in two stages: first as a tree with a node for each rule that was matched, and
only then as what the tree stands for.  This module is the first stage, the grammar by itself.  A
node spans the text that its rule read; signs, blanks and what is only looked ahead at leave no
nodes.  The rules nest as those of paths and queries do, so they are stacked in levels in the same
way.
-/

set_option autoImplicit false

namespace TreeQuery.Grammar

/-- A node of a parse tree: the rule that was matched, the text that was read by it, and the nodes
of the rules inside it. -/
inductive Tree where
  | node (rule : Rule) (text : String) (children : List Tree)

/-- A parser that leaves nodes. -/
abbrev TreeParser : Type := Parser (List Tree)

open TreeQuery.Grammar.Parser

/-! ## Nodes and sequences -/

/-- Reads without leaving nodes. -/
def unseen {α : Type} (parser : Parser α) : TreeParser := do
  let _ ← parser
  return []

def sign (text : String) : TreeParser := unseen (literal text)

/-- Reads as a rule, and leaves a node with the nodes inside it. -/
def node (name : Rule) (inside : TreeParser) : TreeParser := fun negated cursor attempts =>
  match rule name inside negated cursor attempts with
  | .matched children next attempts =>
      let text := String.ofList (cursor.rest.take (next.offset - cursor.offset))
      .matched [.node name text children] next attempts
  | .failed attempts => .failed attempts

/-- One after the other, with blanks allowed in between. -/
def spaced : List TreeParser → TreeParser
  | [] => succeed []
  | [last] => last
  | first :: second :: rest => do
      let nodes ← first
      blanks
      let others ← spaced (second :: rest)
      return nodes ++ others

/-- One after the other, with nothing in between. -/
def adjoined : List TreeParser → TreeParser
  | [] => succeed []
  | [last] => last
  | first :: second :: rest => do
      let nodes ← first
      let others ← adjoined (second :: rest)
      return nodes ++ others

def several (parser : TreeParser) : TreeParser := do
  return (← many parser).flatten

def perhaps (parser : TreeParser) : TreeParser := do
  return (← optional parser).getD []

def bracketed (opening : String) (parser : TreeParser) (closing : String) : TreeParser :=
  spaced [sign opening, parser, sign closing]

/-- One or more items with separators between them. -/
def listed (separator item : TreeParser) : TreeParser :=
  spaced [item, several (spaced [separator, item])]

/-! ## Tokens -/

/-- A name. -/
def identifierNode : TreeParser :=
  node .identifier (unseen do
    let _ ← character startsName
    charactersWhile continuesName)

/-- A string, with a node for what is between its quotes. -/
def stringNode : TreeParser :=
  node .stringLiteral <| adjoined [
    sign "\"",
    node .stringInner (unseen (charactersWhile insideString)),
    sign "\""]

/-- A variable, with a node for its name. -/
def referenceNode : TreeParser :=
  node .reference (adjoined [sign "$", identifierNode])

def keywordNode (name : Rule) (spelling : String) : TreeParser :=
  node name (unseen (word [spelling]))

def docKeywordNode : TreeParser :=
  node .docKeyword (unseen (word ["document", "doc"]))

def axisNode : TreeParser :=
  firstOf [node .doubleSlash (sign "//"), node .slash (sign "/")]

def valueOperatorNode : TreeParser :=
  node .valueOperator (firstOf [sign "=", keywordNode .eqKeyword "eq"])

def identityOperatorNode : TreeParser :=
  node .identityOperator (firstOf [sign "==", keywordNode .isKeyword "is"])

def comparisonNode : TreeParser :=
  firstOf [identityOperatorNode, valueOperatorNode]

/-! ## Paths and filters -/

/-- The tree parsers of one nesting level of paths. -/
structure PathTrees where
  path : TreeParser
  filter : TreeParser
  negation : TreeParser

namespace PathTrees

/-- The level at which nothing is read any more. -/
def innermost : PathTrees := ⟨fail, fail, fail⟩

variable (inner : PathTrees)

def pathAtom : TreeParser :=
  node .pathAtom <| firstOf [
    node .textTest (spaced [sign "text", sign "(", sign ")"]),
    node .parentStep (sign ".."),
    node .currentStep (sign "."),
    node .wildcard (sign "*"),
    node .attributeStep (adjoined [sign "@", identifierNode]),
    node .pathParentheses (bracketed "(" inner.path ")"),
    node .tagStep (spaced [unseen (absent reserved), identifierNode])]

def pathFiltered : TreeParser :=
  node .pathFiltered (spaced [inner.pathAtom, several (bracketed "[" inner.filter "]")])

def pathSteps : TreeParser :=
  node .pathSteps (spaced [inner.pathFiltered, several (spaced [axisNode, inner.pathFiltered])])

def outerPath : TreeParser :=
  node .path (listed (sign ",") inner.pathSteps)

def filterPrimary : TreeParser :=
  node .filterPrimary <| firstOf [
    node .filterConstant (spaced [inner.outerPath, valueOperatorNode, stringNode]),
    node .filterComparison (spaced [inner.outerPath, comparisonNode, inner.outerPath]),
    node .filterParentheses (spaced [bracketed "(" inner.filter ")",
      unseen (absent (firstOf [do let _ ← axis, literal "[", comma]))]),
    node .filterPath inner.outerPath]

def outerNegation : TreeParser :=
  node .filterNot <| firstOf [
    spaced [keywordNode .notKeyword "not", inner.negation],
    inner.filterPrimary]

def filterAnd : TreeParser :=
  node .filterAnd (listed (keywordNode .andKeyword "and") inner.outerNegation)

def filterOr : TreeParser :=
  node .filterOr (listed (keywordNode .orKeyword "or") inner.filterAnd)

def outerFilter : TreeParser :=
  node .filter inner.filterOr

/-- The level outside a level. -/
def outside : PathTrees :=
  ⟨inner.outerPath, inner.outerFilter, inner.outerNegation⟩

end PathTrees

/-- A number of nesting levels of paths, stacked. -/
def pathTrees : Nat → PathTrees
  | 0 => .innermost
  | depth + 1 => (pathTrees depth).outside

def documentCallNode : TreeParser :=
  node .documentCall (spaced [docKeywordNode, bracketed "(" stringNode ")"])

/-- A path from the root of a named document, given the tree parser of relative paths. -/
def documentPathNode (path : TreeParser) : TreeParser :=
  node .documentPath (spaced [documentCallNode, axisNode, path])

/-! ## Queries and conditions -/

/-- The tree parsers of one nesting level of queries, beside that of the paths at every level. -/
structure QueryTrees where
  path : TreeParser
  query : TreeParser
  single : TreeParser
  condition : TreeParser
  negation : TreeParser

namespace QueryTrees

/-- The level at which no query and no condition is read any more. -/
def innermost (path : TreeParser) : QueryTrees := ⟨path, fail, fail, fail, fail⟩

variable (inner : QueryTrees)

def inBinding : TreeParser :=
  node .inBinding (spaced [referenceNode, keywordNode .inKeyword "in", inner.single])

def letBinding : TreeParser :=
  node .letBinding (spaced [referenceNode, sign ":=", inner.single])

def forClause : TreeParser :=
  node .forClause (spaced [keywordNode .forKeyword "for", listed (sign ",") inner.inBinding])

def letClause : TreeParser :=
  node .letClause (spaced [keywordNode .letKeyword "let", listed (sign ",") inner.letBinding])

def whereClause : TreeParser :=
  node .whereClause (spaced [keywordNode .whereKeyword "where", inner.condition])

def returnClause : TreeParser :=
  node .returnClause (spaced [keywordNode .returnKeyword "return", inner.query])

def flwr : TreeParser :=
  node .flwr (spaced [inner.forClause, perhaps inner.letClause, perhaps inner.whereClause,
    inner.returnClause])

def letIn : TreeParser :=
  node .letIn (spaced [inner.letClause, inner.query])

def tagList : TreeParser :=
  node .tagList (bracketed "[" (perhaps (listed (sign ",") identifierNode)) "]")

def join : TreeParser :=
  node .join (spaced [keywordNode .joinKeyword "join", sign "(", inner.single, sign ",",
    inner.single, sign ",", tagList, sign ",", tagList, sign ")"])

def element : TreeParser :=
  node .element (spaced [sign "<", identifierNode, sign ">", bracketed "\x7b" inner.query "\x7d",
    sign "<", sign "/", identifierNode, sign ">"])

def queryPrimary : TreeParser :=
  node .queryPrimary <| firstOf [
    documentPathNode inner.path,
    referenceNode,
    stringNode,
    inner.join,
    inner.element,
    node .queryParentheses (bracketed "(" inner.query ")")]

def queryPath : TreeParser :=
  node .queryPath (spaced [inner.queryPrimary, perhaps (spaced [axisNode, inner.path])])

def outerSingle : TreeParser :=
  node .querySingle (firstOf [inner.flwr, inner.letIn, inner.queryPath])

def outerQuery : TreeParser :=
  node .query (listed (sign ",") inner.outerSingle)

def conditionPrimary : TreeParser :=
  node .conditionPrimary <| firstOf [
    node .conditionEmpty
      (spaced [keywordNode .emptyKeyword "empty", bracketed "(" inner.query ")"]),
    node .conditionSome (spaced [keywordNode .someKeyword "some", listed (sign ",") inner.inBinding,
      keywordNode .satisfiesKeyword "satisfies", inner.condition]),
    node .conditionComparison (spaced [inner.outerSingle, comparisonNode, inner.outerSingle]),
    node .conditionParentheses (bracketed "(" inner.condition ")")]

def outerNegation : TreeParser :=
  node .conditionNot <| firstOf [
    spaced [keywordNode .notKeyword "not", inner.negation],
    inner.conditionPrimary]

def conditionAnd : TreeParser :=
  node .conditionAnd (listed (keywordNode .andKeyword "and") inner.outerNegation)

def conditionOr : TreeParser :=
  node .conditionOr (listed (keywordNode .orKeyword "or") inner.conditionAnd)

def outerCondition : TreeParser :=
  node .condition inner.conditionOr

/-- The level outside a level. -/
def outside : QueryTrees :=
  ⟨inner.path, inner.outerQuery, inner.outerSingle, inner.outerCondition, inner.outerNegation⟩

end QueryTrees

/-- A number of nesting levels of queries, stacked. -/
def queryTrees (path : TreeParser) : Nat → QueryTrees
  | 0 => .innermost path
  | depth + 1 => (queryTrees path depth).outside

/-! ## Whole texts -/

/-- Leaves a node at the end of the text only. -/
def endNode : TreeParser := do
  endOfInput
  return [.node .endOfInput "" []]

/-- A whole text as one rule, with blanks allowed around its content. -/
def wholeTree (name : Rule) (parser : TreeParser) : TreeParser :=
  node name (spaced [succeed [], parser, endNode])

end TreeQuery.Grammar
