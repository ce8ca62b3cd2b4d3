/-!
# Grammar rules

The rules of the grammar that a diagnostic can name, in the order in which a diagnostic
lists them: the end of the input first, then the rules from whole texts down to the
smallest conditions.  `Rule.label` is the name a reader of a diagnostic sees.
-/

set_option autoImplicit false

namespace TreeQuery.Grammar

/-- The named rules of the grammar. -/
inductive Rule where
  | endOfInput
  | wholePath | wholeQuery
  | identifier | stringLiteral | stringInner | reference
  | docKeyword | forKeyword | inKeyword | letKeyword | whereKeyword | returnKeyword
  | joinKeyword | someKeyword | satisfiesKeyword | emptyKeyword | andKeyword | orKeyword
  | notKeyword | eqKeyword | isKeyword
  | reserved
  | doubleSlash | slash
  | identityOperator | valueOperator
  | documentCall | documentPath
  | path | pathSteps | pathFiltered | pathAtom
  | textTest | parentStep | currentStep | wildcard | attributeStep | pathParentheses | tagStep
  | filter | filterOr | filterAnd | filterNot | filterPrimary
  | filterConstant | filterComparison | filterParentheses | filterPath
  | query | querySingle | queryPath | queryPrimary | queryParentheses
  | element | join | tagList
  | flwr | forClause | inBinding | letClause | letBinding | whereClause | returnClause | letIn
  | condition | conditionOr | conditionAnd | conditionNot | conditionPrimary
  | conditionEmpty | conditionSome | conditionComparison | conditionParentheses
  deriving DecidableEq

namespace Rule

/-- The name under which a diagnostic mentions a rule. -/
def label : Rule → String
  | .endOfInput => "EOI"
  | .wholePath => "xpath"
  | .wholeQuery => "query"
  | .identifier => "identifier"
  | .stringLiteral => "string_literal"
  | .stringInner => "string_inner"
  | .reference => "variable"
  | .docKeyword => "K_DOC"
  | .forKeyword => "K_FOR"
  | .inKeyword => "K_IN"
  | .letKeyword => "K_LET"
  | .whereKeyword => "K_WHERE"
  | .returnKeyword => "K_RETURN"
  | .joinKeyword => "K_JOIN"
  | .someKeyword => "K_SOME"
  | .satisfiesKeyword => "K_SATISFIES"
  | .emptyKeyword => "K_EMPTY"
  | .andKeyword => "K_AND"
  | .orKeyword => "K_OR"
  | .notKeyword => "K_NOT"
  | .eqKeyword => "K_EQ"
  | .isKeyword => "K_IS"
  | .reserved => "reserved"
  | .doubleSlash => "dslash"
  | .slash => "slash"
  | .identityOperator => "identity_op"
  | .valueOperator => "value_op"
  | .documentCall => "doc_call"
  | .documentPath => "ap"
  | .path => "rp"
  | .pathSteps => "rp_path"
  | .pathFiltered => "rp_filtered"
  | .pathAtom => "rp_atom"
  | .textTest => "text_test"
  | .parentStep => "parent_step"
  | .currentStep => "current_step"
  | .wildcard => "wildcard"
  | .attributeStep => "attribute_step"
  | .pathParentheses => "rp_paren"
  | .tagStep => "tag_step"
  | .filter => "filter"
  | .filterOr => "f_or"
  | .filterAnd => "f_and"
  | .filterNot => "f_not"
  | .filterPrimary => "f_primary"
  | .filterConstant => "f_constant_eq"
  | .filterComparison => "f_compare"
  | .filterParentheses => "f_paren"
  | .filterPath => "f_path"
  | .query => "xq"
  | .querySingle => "xq_single"
  | .queryPath => "xq_path"
  | .queryPrimary => "xq_primary"
  | .queryParentheses => "xq_paren"
  | .element => "tag_ctor"
  | .join => "join_expr"
  | .tagList => "tag_list"
  | .flwr => "flwr"
  | .forClause => "for_clause"
  | .inBinding => "in_binding"
  | .letClause => "let_clause"
  | .letBinding => "let_binding"
  | .whereClause => "where_clause"
  | .returnClause => "return_clause"
  | .letIn => "let_expr"
  | .condition => "cond"
  | .conditionOr => "c_or"
  | .conditionAnd => "c_and"
  | .conditionNot => "c_not"
  | .conditionPrimary => "c_primary"
  | .conditionEmpty => "c_empty"
  | .conditionSome => "c_some"
  | .conditionComparison => "c_compare"
  | .conditionParentheses => "c_paren"

/-- Every rule, in the order in which a diagnostic lists them. -/
def all : List Rule :=
  [.endOfInput, .wholePath, .wholeQuery, .identifier, .stringLiteral, .stringInner, .reference,
    .docKeyword, .forKeyword, .inKeyword, .letKeyword, .whereKeyword, .returnKeyword,
    .joinKeyword, .someKeyword, .satisfiesKeyword, .emptyKeyword, .andKeyword, .orKeyword,
    .notKeyword, .eqKeyword, .isKeyword, .reserved, .doubleSlash, .slash, .identityOperator,
    .valueOperator, .documentCall, .documentPath, .path, .pathSteps, .pathFiltered, .pathAtom,
    .textTest, .parentStep, .currentStep, .wildcard, .attributeStep, .pathParentheses, .tagStep,
    .filter, .filterOr, .filterAnd, .filterNot, .filterPrimary, .filterConstant,
    .filterComparison, .filterParentheses, .filterPath, .query, .querySingle, .queryPath,
    .queryPrimary, .queryParentheses, .element, .join, .tagList, .flwr, .forClause, .inBinding,
    .letClause, .letBinding, .whereClause, .returnClause, .letIn, .condition, .conditionOr,
    .conditionAnd, .conditionNot, .conditionPrimary, .conditionEmpty, .conditionSome,
    .conditionComparison, .conditionParentheses]

/-- No rule is missing from the list. -/
theorem mem_all (rule : Rule) : rule ∈ all := by
  cases rule <;> decide

/-- The labels of the rules that occur in a list, each once and in diagnostic order. -/
def labels (rules : List Rule) : List String :=
  (all.filter (· ∈ rules)).map label

end Rule

end TreeQuery.Grammar
