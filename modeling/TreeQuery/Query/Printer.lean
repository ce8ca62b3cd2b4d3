import TreeQuery.Path.Printer
import TreeQuery.Query.Basic
import TreeQuery.Text.Lines

/-!
# Printing queries

A query has two printed forms: `inline` on one line, and `pretty`, which lays out on
several lines every part whose inline form is longer than forty bytes.  Conditions stay
on one line in both.

Explicit parentheses are kept.  Further ones are added where a part binds less tightly
than its place demands, and around a part whose last clause would take in what follows
it: a `for` or `let` expression before a comma, a `some` condition before `and` or `or`.
-/

set_option autoImplicit false

namespace TreeQuery

/-- How tightly a query binds. -/
def Query.tightness : Query → Nat
  | .pair _ _ => 0
  | .flwr _ _ _ _ | .letIn _ _ => 1
  | .step _ _ _ => 2
  | _ => 3

/-- Whether the last clause of a query would take in what follows it. -/
def Query.isOpenEnded : Query → Bool
  | .flwr _ _ _ _ | .letIn _ _ => true
  | .pair _ right => right.isOpenEnded
  | _ => false

/-- Whether a query stands in parentheses where a single query is due. -/
def Query.needsParentheses (query : Query) : Bool :=
  query.isOpenEnded || query.tightness < 1

/-- How tightly a condition binds. -/
def Condition.tightness : Condition → Nat
  | .or _ _ => 0
  | .and _ _ => 1
  | .not _ => 2
  | _ => 3

/-- Whether the last clause of a condition would take in what follows it. -/
def Condition.isOpenEnded : Condition → Bool
  | .someSatisfies _ _ => true
  | .and _ right | .or _ right => right.isOpenEnded
  | .not inner => inner.isOpenEnded
  | _ => false

/-! ## On one line -/

/-- A constructor around the printed form of its body. -/
def printElement (name body : String) : String :=
  "<" ++ name ++ ">\x7b" ++ body ++ "\x7d</" ++ name ++ ">"

/-- A list of tags in brackets. -/
def printTags (tags : List String) : String :=
  "[" ++ ", ".intercalate tags ++ "]"

mutual
/-- The printed form of a query on one line. -/
def Query.inline : Query → String
  | .reference name => "$" ++ name
  | .constant value => "\"" ++ value ++ "\""
  | .document path => path.print
  | .parenthesized inner => "(" ++ inner.inline ++ ")"
  | .pair left right =>
      parenthesizedIf left.isOpenEnded left.inline ++ ", " ++
        parenthesizedIf (right.tightness < 1) right.inline
  | .step base axis path =>
      parenthesizedIf (base.tightness < 2) base.inline ++ axis.separator ++ path.printOperand
  | .element name body => printElement name body.inline
  | .join left right leftTags rightTags =>
      "join(" ++ ", ".intercalate [parenthesizedIf left.needsParentheses left.inline,
        parenthesizedIf right.needsParentheses right.inline, printTags leftTags,
        printTags rightTags] ++ ")"
  | .letIn bindings body =>
      "let " ++ ", ".intercalate (Binding.inlineAll " := " bindings) ++ " " ++ body.inline
  | .flwr bindings lets condition result =>
      " ".intercalate <|
        ["for " ++ ", ".intercalate (Binding.inlineAll " in " bindings)] ++
        (if lets.isEmpty then [] else
          ["let " ++ ", ".intercalate (Binding.inlineAll " := " lets)]) ++
        Condition.inlineWhere condition ++ ["return " ++ result.inline]

/-- The printed form of a condition, which is always on one line. -/
def Condition.inline : Condition → String
  | .valueEq left right =>
      parenthesizedIf left.needsParentheses left.inline ++ " = " ++
        parenthesizedIf right.needsParentheses right.inline
  | .identityEq left right =>
      parenthesizedIf left.needsParentheses left.inline ++ " == " ++
        parenthesizedIf right.needsParentheses right.inline
  | .empty query => "empty(" ++ query.inline ++ ")"
  | .someSatisfies bindings body =>
      "some " ++ ", ".intercalate (Binding.inlineAll " in " bindings) ++ " satisfies " ++
        body.inline
  | .parenthesized inner => "(" ++ inner.inline ++ ")"
  | .and left right =>
      parenthesizedIf (left.isOpenEnded || left.tightness < 1) left.inline ++ " and " ++
        parenthesizedIf (right.tightness < 2) right.inline
  | .or left right =>
      parenthesizedIf left.isOpenEnded left.inline ++ " or " ++
        parenthesizedIf (right.tightness < 1) right.inline
  | .not inner => "not " ++ parenthesizedIf (inner.tightness < 2) inner.inline

/-- The printed forms of bindings on one line. -/
def Binding.inlineAll (operator : String) : List Binding → List String
  | [] => []
  | ⟨name, source⟩ :: rest =>
      ("$" ++ name ++ operator ++ parenthesizedIf source.needsParentheses source.inline) ::
        Binding.inlineAll operator rest

/-- The `where` clause, if there is one. -/
def Condition.inlineWhere : Option Condition → List String
  | none => []
  | some condition => ["where " ++ condition.inline]
end

/-! ## On several lines -/

/-- The length, in bytes, up to which a part stays on one line. -/
def inlineLimit : Nat := 40

/-- A text in parentheses where they are needed; a text of several lines is indented
between them. -/
def parenthesizedBlockIf (needed : Bool) (text : String) : String :=
  if !needed then text
  else if text.contains '\n' then "(\n" ++ Text.indent text ++ "\n)"
  else "(" ++ text ++ ")"

/-- A text whose lines after the first stand under the first binding of a clause. -/
def hangingIndent (text : String) : String :=
  String.ofList <| text.toList.flatMap fun c =>
    if c = '\n' then ['\n', ' ', ' ', ' ', ' '] else [c]

mutual
/-- The printed form of a query on as many lines as it needs. -/
def Query.pretty (query : Query) : String :=
  if query.inline.utf8ByteSize ≤ inlineLimit then query.inline
  else match query with
    | .reference name => "$" ++ name
    | .constant value => "\"" ++ value ++ "\""
    | .document path => path.print
    | .parenthesized inner => parenthesizedBlockIf true inner.pretty
    | .pair left right =>
        parenthesizedBlockIf left.isOpenEnded left.pretty ++ ",\n" ++
          parenthesizedBlockIf (right.tightness < 1) right.pretty
    | .step base axis path =>
        parenthesizedBlockIf (base.tightness < 2) base.pretty ++ axis.separator ++
          path.printOperand
    | .element name body => printElement name ("\n" ++ Text.indent body.pretty ++ "\n")
    | .join left right leftTags rightTags =>
        "join(\n" ++ ",\n".intercalate
          [Text.indent (parenthesizedBlockIf left.needsParentheses left.pretty),
            Text.indent (parenthesizedBlockIf right.needsParentheses right.pretty),
            Text.indent (printTags leftTags), Text.indent (printTags rightTags)] ++ "\n)"
    | .letIn bindings body =>
        "let " ++ ",\n    ".intercalate (Binding.prettyAll " := " bindings) ++ "\n" ++ body.pretty
    | .flwr bindings lets condition result =>
        "\n".intercalate <|
          ["for " ++ ",\n    ".intercalate (Binding.prettyAll " in " bindings)] ++
          (if lets.isEmpty then [] else
            ["let " ++ ",\n    ".intercalate (Binding.prettyAll " := " lets)]) ++
          Condition.inlineWhere condition ++ ["return\n" ++ Text.indent result.pretty]

/-- The printed forms of bindings on as many lines as they need. -/
def Binding.prettyAll (operator : String) : List Binding → List String
  | [] => []
  | ⟨name, source⟩ :: rest =>
      ("$" ++ name ++ operator ++
        hangingIndent (parenthesizedBlockIf source.needsParentheses source.pretty)) ::
        Binding.prettyAll operator rest
end

end TreeQuery
