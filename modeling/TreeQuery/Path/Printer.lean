import TreeQuery.Path.Basic

/-!
# Printing paths

The printed form of a path or a filter keeps every explicit pair of parentheses and adds
further ones only where a part binds less tightly than its place demands.  From loose to
tight: comma, steps, filters and single steps in paths; `or`, `and`, `not` and
comparisons in filters.
-/

set_option autoImplicit false

namespace TreeQuery

/-- A text in parentheses where they are needed. -/
def parenthesizedIf (needed : Bool) (text : String) : String :=
  if needed then "(" ++ text ++ ")" else text

/-- How tightly a path binds. -/
def Path.tightness : Path → Nat
  | .pair _ _ => 0
  | .step _ _ _ => 1
  | .filtered _ _ => 2
  | _ => 3

/-- How tightly a filter binds. -/
def Filter.tightness : Filter → Nat
  | .or _ _ => 0
  | .and _ _ => 1
  | .not _ => 2
  | _ => 3

mutual
/-- The printed form of a path. -/
def Path.print : Path → String
  | .tag name => name
  | .wildcard => "*"
  | .current => "."
  | .parent => ".."
  | .text => "text()"
  | .attribute name => "@" ++ name
  | .parenthesized inner => "(" ++ inner.print ++ ")"
  | .step left axis right =>
      parenthesizedIf (left.tightness < 1) left.print ++ axis.separator ++
        parenthesizedIf (right.tightness < 2) right.print
  | .filtered base filter =>
      parenthesizedIf (base.tightness < 2) base.print ++ "[" ++ filter.print ++ "]"
  | .pair left right => left.print ++ ", " ++ parenthesizedIf (right.tightness < 1) right.print

/-- The printed form of a filter. -/
def Filter.print : Filter → String
  | .path path => parenthesizedIf (path.tightness < 1) path.print
  | .valueEq left right =>
      parenthesizedIf (left.tightness < 1) left.print ++ " = " ++
        parenthesizedIf (right.tightness < 1) right.print
  | .identityEq left right =>
      parenthesizedIf (left.tightness < 1) left.print ++ " == " ++
        parenthesizedIf (right.tightness < 1) right.print
  | .constantEq path value =>
      parenthesizedIf (path.tightness < 1) path.print ++ " = \"" ++ value ++ "\""
  | .parenthesized inner => "(" ++ inner.print ++ ")"
  | .and left right =>
      parenthesizedIf (left.tightness < 1) left.print ++ " and " ++
        parenthesizedIf (right.tightness < 2) right.print
  | .or left right => left.print ++ " or " ++ parenthesizedIf (right.tightness < 1) right.print
  | .not inner => "not " ++ parenthesizedIf (inner.tightness < 2) inner.print
end

/-- The printed form of a path that another expression continues or surrounds. -/
def Path.printOperand (path : Path) : String :=
  parenthesizedIf (path.tightness < 1) path.print

/-- The printed form of a document path. -/
def DocumentPath.print (path : DocumentPath) : String :=
  "doc(\"" ++ path.document ++ "\")" ++ path.axis.separator ++ path.path.printOperand

end TreeQuery
