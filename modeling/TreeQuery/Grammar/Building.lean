import TreeQuery.Grammar.Parse
import TreeQuery.Grammar.Trees

/-!
# Building from parse trees

The second stage of reading goes through a tree from its root and takes the children of each node by
their position; in some rules it passes over keywords and the end of the input first.  It does not
know which children a rule leaves, so a child that is not there is a flaw of the tree, and so is a
rule that does not belong where it stands.

How a node is built depends on where it stands in the tree.  A part of a tree has what the node is
built into for each such place, and the building of a node goes over the parts its children are.
-/

set_option autoImplicit false

namespace TreeQuery.Grammar

/-- Why a text is not read as a path or a query: it does not match the grammar, its tree is
malformed as it lacks a part, or the tags of a constructor clash. -/
inductive Flaw where
  | mismatch (mismatch : Mismatch)
  | missing (part : String)
  | tagClash (clash : TagClash)

/-- Where a flaw is reported.  A malformed tree is reported at line and column zero, where no text
has a character; a clash is reported without a position. -/
def Flaw.position? : Flaw → Option Text.Position
  | .mismatch found => some found.position
  | .missing _ => some ⟨0, 0⟩
  | .tagClash _ => none

abbrev Built (α : Type) : Type := Except Flaw α

def missing {α : Type} (part : String) : Built α := .error (.missing part)

/-- Whether a rule is that of a keyword or of the end of the input. -/
def Rule.isPassedOver : Rule → Bool
  | .docKeyword | .forKeyword | .inKeyword | .letKeyword | .whereKeyword | .returnKeyword
  | .joinKeyword | .someKeyword | .satisfiesKeyword | .emptyKeyword | .andKeyword | .orKeyword
  | .notKeyword | .eqKeyword | .isKeyword | .endOfInput => true
  | _ => false

/-- What a node is built into, for each place that it can have in a tree. -/
structure Part where
  rule : Rule
  text : String
  identifier : Built String
  string : String
  /-- The name of a document, from its call. -/
  documentName : Built String
  documentPath : Built DocumentPath
  path : Built Path
  steps : Built Path
  filtered : Built Path
  atom : Built Path
  /-- A path, from what an atom consists of. -/
  step : Built Path
  filter : Built Filter
  query : Built Query
  single : Built Query
  /-- A query, from what a single query consists of. -/
  expression : Built Query
  primary : Built Query
  /-- A query, from what a primary query consists of. -/
  operand : Built Query
  tags : Built (List String)
  binding : Built Binding
  bindings : Built (List Binding)
  /-- A query, from the clause that returns it. -/
  result : Built Query
  /-- A condition, from the clause that demands it. -/
  demand : Built Condition
  condition : Built Condition
  wholePath : Built DocumentPath
  wholeQuery : Built Query

namespace Part

variable (rule : Rule) (text : String) (parts : List Part)

/-- The next part and those behind it. -/
def expect (what : String) : List Part → Built (Part × List Part)
  | [] => missing what
  | part :: rest => return (part, rest)

/-- The parts that are no keywords and not the end of the input. -/
def significant : List Part := parts.filter fun part => !part.rule.isPassedOver

/-- Joins what is built from parts to what has been built, from the left. -/
def joined {α β : Type} (build : Part → Built α) (join : β → α → β) (first : β)
    (parts : List Part) : Built β :=
  parts.foldlM (fun left next => return join left (← build next)) first

/-- Joins what is built from parts, of which there must be one, from the left. -/
def folded {α : Type} (what : String) (build : Part → Built α) (join : α → α → α)
    (parts : List Part) : Built α := do
  let (first, others) ← expect what parts
  joined build join (← build first) others

/-! ## Tokens -/

def axisOf (part : Part) : Built Axis :=
  match part.rule with
  | .slash => return .child
  | .doubleSlash => return .descendantOrSelf
  | _ => missing "path separator"

/-- A name is built from its own node and from a node around it. -/
def identifierOf : Built String :=
  if rule = .identifier then return text
  else do
    let (name, _) ← expect "identifier" parts
    return name.text

def stringOf : String :=
  match parts with
  | [] => ""
  | inner :: _ => inner.text

/-! ## Paths and filters -/

def documentNameOf : Built String := do
  let (literal, _) ← expect "document name" (significant parts)
  return literal.string

def documentPathOf : Built DocumentPath := do
  let (call, rest) ← expect "doc call" (significant parts)
  let document ← call.documentName
  let (sign, rest) ← expect "path separator" rest
  let axis ← axisOf sign
  let (path, _) ← expect "relative path" rest
  return ⟨document, axis, ← path.path⟩

def pathOf : Built Path := folded "path" (·.steps) .pair parts

/-- Adds steps to a path: a sign and a filtered step for each. -/
def furtherSteps (left : Path) : List Part → Built Path
  | [] => return left
  | [sign] => do
      let _ ← axisOf sign
      missing "step"
  | sign :: step :: rest => do
      let axis ← axisOf sign
      furtherSteps (.step left axis (← step.filtered)) rest

def stepsOf : Built Path := do
  let (first, others) ← expect "step" parts
  furtherSteps (← first.filtered) others

def filteredOf : Built Path := do
  let (first, filters) ← expect "step" parts
  joined (·.filter) .filtered (← first.atom) filters

def atomOf : Built Path := do
  let (inner, _) ← expect "step" parts
  inner.step

def stepOf : Built Path :=
  match rule with
  | .textTest => return .text
  | .parentStep => return .parent
  | .currentStep => return .current
  | .wildcard => return .wildcard
  | .attributeStep => return .attribute (← identifierOf rule text parts)
  | .pathParentheses => do
      let (path, _) ← expect "path" parts
      return .parenthesized (← path.path)
  | .tagStep => return .tag (← identifierOf rule text parts)
  | _ => missing "step"

def filterOf : Built Filter :=
  match rule with
  | .filter | .filterPrimary => do
      let (inner, _) ← expect "filter" parts
      inner.filter
  | .filterOr => folded "filter" (·.filter) .or (significant parts)
  | .filterAnd => folded "filter" (·.filter) .and (significant parts)
  | .filterNot => do
      let (inner, _) ← expect "filter" (significant parts)
      if inner.rule = .filterNot then return .not (← inner.filter) else inner.filter
  | .filterConstant => do
      let (path, rest) ← expect "path" parts
      let path ← path.path
      let (_, rest) ← expect "operator" rest
      let (value, _) ← expect "string" rest
      return .constantEq path value.string
  | .filterComparison => do
      let (left, rest) ← expect "path" parts
      let left ← left.path
      let (operator, rest) ← expect "operator" rest
      let (right, _) ← expect "path" rest
      let right ← right.path
      return if operator.rule = .identityOperator then .identityEq left right
        else .valueEq left right
  | .filterParentheses => do
      let (filter, _) ← expect "filter" parts
      return .parenthesized (← filter.filter)
  | .filterPath => do
      let (path, _) ← expect "path" parts
      return .path (← path.path)
  | _ => missing "filter"

/-! ## Queries -/

def queryOf : Built Query := folded "expression" (·.single) .pair parts

def singleOf : Built Query := do
  let (inner, _) ← expect "expression" parts
  inner.expression

/-- The clauses of a query as far as they have been built. -/
structure Clauses where
  bindings : List Binding
  lets : List Binding
  condition : Option Condition
  result : Option Query

def addClause (clauses : Clauses) (clause : Part) : Built Clauses :=
  match clause.rule with
  | .forClause => return { clauses with bindings := ← clause.bindings }
  | .letClause => return { clauses with lets := ← clause.bindings }
  | .whereClause => return { clauses with condition := some (← clause.demand) }
  | .returnClause => return { clauses with result := some (← clause.result) }
  | _ => missing "flwr clause"

def flwrOf : Built Query := do
  let clauses ← parts.foldlM addClause ⟨[], [], none, none⟩
  match clauses.result with
  | none => missing "return clause"
  | some result => return .flwr clauses.bindings clauses.lets clauses.condition result

def expressionOf : Built Query :=
  match rule with
  | .flwr => flwrOf parts
  | .letIn => do
      let (clause, rest) ← expect "let clause" parts
      let bindings ← clause.bindings
      let (body, _) ← expect "let body" rest
      return .letIn bindings (← body.query)
  | .queryPath => do
      let (base, rest) ← expect "expression" parts
      let base ← base.primary
      match rest with
      | [] => return base
      | sign :: rest => do
          let axis ← axisOf sign
          let (path, _) ← expect "relative path" rest
          return .step base axis (← path.path)
  | _ => missing "expression"

def primaryOf : Built Query := do
  let (inner, _) ← expect "expression" parts
  inner.operand

def operandOf : Built Query :=
  match rule with
  | .documentPath => return .document (← documentPathOf parts)
  | .reference => return .reference (← identifierOf rule text parts)
  | .stringLiteral => return .constant (stringOf parts)
  | .queryParentheses => do
      let (inner, _) ← expect "expression" parts
      return .parenthesized (← inner.query)
  | .element => do
      let (opening, rest) ← expect "tag name" parts
      let opening ← opening.identifier
      let (body, rest) ← expect "constructor body" rest
      let body ← body.query
      let (closing, _) ← expect "closing tag name" rest
      let closing ← closing.identifier
      if opening = closing then return .element opening body
      else .error (.tagClash ⟨opening, closing⟩)
  | .join => do
      let (left, rest) ← expect "join input" (significant parts)
      let left ← left.single
      let (right, rest) ← expect "join input" rest
      let right ← right.single
      let (leftTags, rest) ← expect "tag list" rest
      let leftTags ← leftTags.tags
      let (rightTags, _) ← expect "tag list" rest
      return .join left right leftTags (← rightTags.tags)
  | _ => missing "expression"

def tagsOf : Built (List String) := parts.mapM (·.identifier)

def bindingOf : Built Binding := do
  let (name, rest) ← expect "variable" (significant parts)
  let name ← name.identifier
  let (source, _) ← expect "binding source" rest
  return ⟨name, ← source.single⟩

def bindingsOf : Built (List Binding) := (significant parts).mapM (·.binding)

def resultOf : Built Query := do
  let (body, _) ← expect "return body" (significant parts)
  body.query

/-! ## Conditions -/

def demandOf : Built Condition := do
  let (condition, _) ← expect "condition" (significant parts)
  condition.condition

/-- The bindings and the body of a quantified condition as far as they have been built. -/
def addSome (built : List Binding × Option Condition) (part : Part) :
    Built (List Binding × Option Condition) :=
  if part.rule = .inBinding then return (built.1 ++ [← part.binding], built.2)
  else return (built.1, some (← part.condition))

def conditionOf : Built Condition :=
  match rule with
  | .condition | .conditionPrimary => do
      let (inner, _) ← expect "condition" parts
      inner.condition
  | .conditionOr => folded "condition" (·.condition) .or (significant parts)
  | .conditionAnd => folded "condition" (·.condition) .and (significant parts)
  | .conditionNot => do
      let (inner, _) ← expect "condition" (significant parts)
      if inner.rule = .conditionNot then return .not (← inner.condition) else inner.condition
  | .conditionEmpty => do
      let (query, _) ← expect "expression" (significant parts)
      return .empty (← query.query)
  | .conditionSome => do
      let (bindings, body) ← (significant parts).foldlM addSome ([], none)
      match body with
      | none => missing "satisfies clause"
      | some body => return .someSatisfies bindings body
  | .conditionComparison => do
      let (left, rest) ← expect "operand" parts
      let left ← left.single
      let (operator, rest) ← expect "operator" rest
      let (right, _) ← expect "operand" rest
      let right ← right.single
      return if operator.rule = .identityOperator then .identityEq left right
        else .valueEq left right
  | .conditionParentheses => do
      let (condition, _) ← expect "condition" parts
      return .parenthesized (← condition.condition)
  | _ => missing "condition"

/-! ## Whole texts -/

def wholePathOf : Built DocumentPath := do
  let (path, _) ← expect "absolute path" (significant parts)
  path.documentPath

def wholeQueryOf : Built Query := do
  let (query, _) ← expect "query body" (significant parts)
  query.query

/-- The part that a node is, from its rule, its text and the parts below it. -/
def of : Part where
  rule := rule
  text := text
  identifier := identifierOf rule text parts
  string := stringOf parts
  documentName := documentNameOf parts
  documentPath := documentPathOf parts
  path := pathOf parts
  steps := stepsOf parts
  filtered := filteredOf parts
  atom := atomOf parts
  step := stepOf rule text parts
  filter := filterOf rule parts
  query := queryOf parts
  single := singleOf parts
  expression := expressionOf rule parts
  primary := primaryOf parts
  operand := operandOf rule text parts
  tags := tagsOf parts
  binding := bindingOf parts
  bindings := bindingsOf parts
  result := resultOf parts
  demand := demandOf parts
  condition := conditionOf rule parts
  wholePath := wholePathOf parts
  wholeQuery := wholeQueryOf parts

end Part

mutual
/-- The part that a tree is. -/
def Tree.part : Tree → Part
  | .node rule text children => .of rule text (Tree.parts children)

def Tree.parts : List Tree → List Part
  | [] => []
  | tree :: rest => tree.part :: Tree.parts rest
end

/-! ## Reading in two stages -/

/-- Reads a whole text as a tree and builds from its root, which is named for flaws. -/
def TreeParser.run {α : Type} (parser : TreeParser) (name : String) (build : Part → Built α)
    (text : String) : Except Flaw α :=
  match parser false (Cursor.start text) Attempts.none with
  | .matched trees _ _ => do
      let (root, _) ← Part.expect name (Tree.parts trees)
      build root
  | .failed attempts => .error (.mismatch ⟨Text.Position.ofOffset text attempts.offset,
      ⟨attempts.expected, attempts.unexpected⟩⟩)

end Grammar

open Grammar

/-- Reads a document path by building it from a tree.  The rules nest without bound, so there may
be any number of levels beyond those that suffice for the text. -/
def DocumentPath.parseInStages (further : Nat) (text : String) : Except Flaw DocumentPath :=
  TreeParser.run
    (wholeTree .wholePath (documentPathNode (pathTrees (levelsFor text + further)).path))
    "xpath" (·.wholePath) text

/-- Reads a query by building it from a tree. -/
def Query.parseInStages (further : Nat) (text : String) : Except Flaw Query :=
  TreeParser.run
    (wholeTree .wholeQuery (queryTrees (pathTrees (levelsFor text + further)).path
      (levelsFor text + further)).query)
    "query" (·.wholeQuery) text

end TreeQuery
