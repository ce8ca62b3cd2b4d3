import TreeQuery.Grammar.Rule
import TreeQuery.Text.Position

/-!
# Expectations

When a text does not match the grammar, the diagnostic says which rules would have
matched at the furthest position that was tried, and which rules matched there although
they must not.  An expectation is that pair of rule lists; `Mismatch` adds the position.
-/

set_option autoImplicit false

namespace TreeQuery.Grammar

/-- Alternatives as a diagnostic lists them. -/
def alternatives : List String → String
  | [] => ""
  | [only] => only
  | [first, second] => first ++ " or " ++ second
  | several => ", ".intercalate several.dropLast ++ ", or " ++ several.getLastD ""

/-- The rules tried in vain at a position, and those that matched there although they
must not. -/
structure Expectation where
  expected : List Rule
  unexpected : List Rule
  deriving DecidableEq

/-- The expectation in words. -/
def Expectation.message (expectation : Expectation) : String :=
  let expected := Rule.labels expectation.expected
  let unexpected := Rule.labels expectation.unexpected
  if unexpected.isEmpty then
    if expected.isEmpty then "unknown parsing error" else "expected " ++ alternatives expected
  else if expected.isEmpty then "unexpected " ++ alternatives unexpected
  else "unexpected " ++ alternatives unexpected ++ "; expected " ++ alternatives expected

/-- A text that does not match the grammar: where, and what would have matched. -/
structure Mismatch where
  position : Text.Position
  expectation : Expectation
  deriving DecidableEq

end TreeQuery.Grammar
