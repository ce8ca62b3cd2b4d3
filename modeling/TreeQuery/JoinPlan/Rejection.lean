/-!
# Rejections

Why a `for` expression is not turned into joins.  Every rejection belongs to the phase
of join planning that finds it.
-/

set_option autoImplicit false

namespace TreeQuery.JoinPlan

/-- The phases of join planning. -/
inductive Phase where
  | checkFor
  | checkWhere
  | checkReturn
  | optimize
  | projectReturn
  deriving DecidableEq

/-- The name of a phase. -/
def Phase.name : Phase → String
  | .checkFor => "check-for"
  | .checkWhere => "check-where"
  | .checkReturn => "check-return"
  | .optimize => "optimize"
  | .projectReturn => "rewrite-return"

/-- Why a `for` expression is not turned into joins. -/
inductive Rejection where
  | letClause
  | boundTwice
  | sourceOffExpression
  | sourceEnd
  | unsupportedSource
  | unsupportedOperand
  | unsupportedCondition
  | returnToParent
  | returnOffSequence
  | unsupportedReturn
  | singleGroup
  | interleavedGroups
  | attributeKey
  | noGroups
  | emptyGroup
  | leftoverCondition
  | leftoverToParent
  deriving DecidableEq

namespace Rejection

/-- The phase that finds a rejection. -/
def phase : Rejection → Phase
  | .letClause | .boundTwice | .sourceOffExpression | .sourceEnd | .unsupportedSource => .checkFor
  | .unsupportedOperand | .unsupportedCondition => .checkWhere
  | .returnToParent | .returnOffSequence | .unsupportedReturn => .checkReturn
  | .singleGroup | .interleavedGroups | .attributeKey | .noGroups | .emptyGroup => .optimize
  | .leftoverCondition | .leftoverToParent => .projectReturn

/-- The reason in words. -/
def reason : Rejection → String
  | .letClause => "let clause present"
  | .boundTwice => "variable bound twice"
  | .sourceOffExpression => "source is not a path off a variable"
  | .sourceEnd => "source may end in an attribute, current or parent step"
  | .unsupportedSource => "unsupported source expression"
  | .unsupportedOperand => "unsupported equality operand"
  | .unsupportedCondition => "condition is not a conjunction of value equalities"
  | .returnToParent => "return path walks to a parent"
  | .returnOffSequence => "return path starts at a sequence"
  | .unsupportedReturn => "unsupported return expression"
  | .singleGroup => "single source group"
  | .interleavedGroups => "source groups interleave"
  | .attributeKey => "join key selects attributes"
  | .noGroups => "no groups"
  | .emptyGroup => "empty group"
  | .leftoverCondition => "unexpected leftover condition"
  | .leftoverToParent => "leftover equality walks to a parent"

end Rejection

end TreeQuery.JoinPlan
