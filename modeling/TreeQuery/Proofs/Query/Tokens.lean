import TreeQuery.Proofs.Path.Tokens
import TreeQuery.Query.Printer

/-!
# Tokens of queries and conditions

As for paths, `Query.tokens` and `Condition.tokens` are the tokens that a query or a condition
is printed as, whatever the layout, and `Query.explicit` and `Condition.explicit` are the trees
in which the parentheses that printing adds are nodes.

A query is printable if its names, strings and paths can be read back and its clauses bind
something.  Which names a clause may bind, and which queries a path may be continued off, are
parameters: a parsed path is never continued off another, while queries made by substitution
have such steps.
-/

set_option autoImplicit false

namespace TreeQuery

open Grammar

/-! ## Tokens -/

/-- A query in parentheses where they are needed. -/
def Query.parenthesizedIf (needed : Bool) (query : Query) : Query :=
  if needed then .parenthesized query else query

/-- A condition in parentheses where they are needed. -/
def Condition.parenthesizedIf (needed : Bool) (condition : Condition) : Condition :=
  if needed then .parenthesized condition else condition

/-- The tokens of a printed document path. -/
def DocumentPath.tokens (path : DocumentPath) : List String :=
  "doc" :: "(" :: stringToken path.document :: ")" :: path.axis.separator ::
    (path.path.operand 1).tokens

/-- The tokens of a printed list of tags. -/
def tagTokens (tags : List String) : List String :=
  "[" :: ((tags.flatMap fun tag => [",", tag]).tail ++ ["]"])

mutual
/-- The tokens of a printed query. -/
def Query.tokens : Query → List String
  | .reference name => [referenceToken name]
  | .constant value => [stringToken value]
  | .document path => path.tokens
  | .parenthesized inner => enclosedIf true inner.tokens
  | .pair left right =>
      enclosedIf left.isOpenEnded left.tokens ++
        "," :: enclosedIf (right.tightness < 1) right.tokens
  | .step base axis path =>
      enclosedIf (base.tightness < 2) base.tokens ++ axis.separator :: (path.operand 1).tokens
  | .element name body =>
      "<" :: name :: ">" :: "\x7b" :: (body.tokens ++ ["\x7d", "<", "/", name, ">"])
  | .join left right leftTags rightTags =>
      "join" :: "(" :: (enclosedIf left.needsParentheses left.tokens ++
        "," :: (enclosedIf right.needsParentheses right.tokens ++
          "," :: (tagTokens leftTags ++ "," :: (tagTokens rightTags ++ [")"]))))
  | .letIn bindings body => "let" :: ((Binding.tokensAll ":=" bindings).tail ++ body.tokens)
  | .flwr bindings lets condition result =>
      "for" :: ((Binding.tokensAll "in" bindings).tail ++
        ((if lets.isEmpty then [] else "let" :: (Binding.tokensAll ":=" lets).tail) ++
          (Condition.tokensWhere condition ++ "return" :: result.tokens)))

/-- The tokens of a printed condition. -/
def Condition.tokens : Condition → List String
  | .valueEq left right =>
      enclosedIf left.needsParentheses left.tokens ++
        "=" :: enclosedIf right.needsParentheses right.tokens
  | .identityEq left right =>
      enclosedIf left.needsParentheses left.tokens ++
        "==" :: enclosedIf right.needsParentheses right.tokens
  | .empty query => "empty" :: "(" :: (query.tokens ++ [")"])
  | .someSatisfies bindings body =>
      "some" :: ((Binding.tokensAll "in" bindings).tail ++ "satisfies" :: body.tokens)
  | .parenthesized inner => enclosedIf true inner.tokens
  | .and left right =>
      enclosedIf (left.isOpenEnded || left.tightness < 1) left.tokens ++
        "and" :: enclosedIf (right.tightness < 2) right.tokens
  | .or left right =>
      enclosedIf left.isOpenEnded left.tokens ++
        "or" :: enclosedIf (right.tightness < 1) right.tokens
  | .not inner => "not" :: enclosedIf (inner.tightness < 2) inner.tokens

/-- The tokens of a printed `where` clause, if there is one. -/
def Condition.tokensWhere : Option Condition → List String
  | none => []
  | some condition => "where" :: condition.tokens

/-- The tokens of printed bindings, each behind a comma. -/
def Binding.tokensAll (operator : String) : List Binding → List String
  | [] => []
  | ⟨name, source⟩ :: rest =>
      "," :: referenceToken name :: operator ::
        (enclosedIf source.needsParentheses source.tokens ++ Binding.tokensAll operator rest)
end

/-! ## Explicit parentheses -/

/-- The document path in which the parentheses that printing adds are nodes. -/
def DocumentPath.explicit (path : DocumentPath) : DocumentPath :=
  ⟨path.document, path.axis, (path.path.operand 1).explicit⟩

mutual
/-- The query in which the parentheses that printing adds are nodes. -/
def Query.explicit : Query → Query
  | .reference name => .reference name
  | .constant value => .constant value
  | .document path => .document path.explicit
  | .parenthesized inner => .parenthesized inner.explicit
  | .pair left right =>
      .pair (left.explicit.parenthesizedIf left.isOpenEnded)
        (right.explicit.parenthesizedIf (right.tightness < 1))
  | .step base axis path =>
      .step (base.explicit.parenthesizedIf (base.tightness < 2)) axis (path.operand 1).explicit
  | .element name body => .element name body.explicit
  | .join left right leftTags rightTags =>
      .join (left.explicit.parenthesizedIf left.needsParentheses)
        (right.explicit.parenthesizedIf right.needsParentheses) leftTags rightTags
  | .letIn bindings body => .letIn (Binding.explicitAll bindings) body.explicit
  | .flwr bindings lets condition result =>
      .flwr (Binding.explicitAll bindings) (Binding.explicitAll lets)
        (Condition.explicitIfPresent condition) result.explicit

/-- The condition in which the parentheses that printing adds are nodes. -/
def Condition.explicit : Condition → Condition
  | .valueEq left right =>
      .valueEq (left.explicit.parenthesizedIf left.needsParentheses)
        (right.explicit.parenthesizedIf right.needsParentheses)
  | .identityEq left right =>
      .identityEq (left.explicit.parenthesizedIf left.needsParentheses)
        (right.explicit.parenthesizedIf right.needsParentheses)
  | .empty query => .empty query.explicit
  | .someSatisfies bindings body => .someSatisfies (Binding.explicitAll bindings) body.explicit
  | .parenthesized inner => .parenthesized inner.explicit
  | .and left right =>
      .and (left.explicit.parenthesizedIf (left.isOpenEnded || left.tightness < 1))
        (right.explicit.parenthesizedIf (right.tightness < 2))
  | .or left right =>
      .or (left.explicit.parenthesizedIf left.isOpenEnded)
        (right.explicit.parenthesizedIf (right.tightness < 1))
  | .not inner => .not (inner.explicit.parenthesizedIf (inner.tightness < 2))

/-- The condition with explicit parentheses, if there is one. -/
def Condition.explicitIfPresent : Option Condition → Option Condition
  | none => none
  | some condition => some condition.explicit

/-- The bindings in whose sources the parentheses that printing adds are nodes. -/
def Binding.explicitAll : List Binding → List Binding
  | [] => []
  | ⟨name, source⟩ :: rest =>
      ⟨name, source.explicit.parenthesizedIf source.needsParentheses⟩ :: Binding.explicitAll rest
end

/-- The tokens of a binding and what they are read as. -/
def Binding.part (operator : String) (binding : Binding) : List String × Binding :=
  (referenceToken binding.name :: operator ::
      enclosedIf binding.source.needsParentheses binding.source.tokens,
    ⟨binding.name, binding.source.explicit.parenthesizedIf binding.source.needsParentheses⟩)

theorem Binding.tokensAll_eq (operator : String) (bindings : List Binding) :
    Binding.tokensAll operator bindings =
      (bindings.map (Binding.part operator)).flatMap fun part => "," :: part.1 := by
  induction bindings with
  | nil => rfl
  | cons binding rest ih =>
      obtain ⟨name, source⟩ := binding
      rw [Binding.tokensAll, ih]
      simp [Binding.part]

theorem Binding.explicitAll_eq (operator : String) (bindings : List Binding) :
    Binding.explicitAll bindings = (bindings.map (Binding.part operator)).map (·.2) := by
  induction bindings with
  | nil => rfl
  | cons binding rest ih =>
      obtain ⟨name, source⟩ := binding
      rw [Binding.explicitAll, ih]
      simp [Binding.part]

/-! ## Printable queries -/

/-- Whether the names and strings of a document path can be read back. -/
def DocumentPath.isPrintable (path : DocumentPath) : Bool :=
  isQuotable path.document && path.path.isPrintable

/-- Whether a query ends in a path that a further step would continue. -/
def Query.endsInPath : Query → Bool
  | .document _ | .step _ _ _ => true
  | _ => false

section

variable (binder : String → Bool) (base : Query → Bool)

mutual
/-- Whether a query can be read back, given which of the names clauses may bind and which
queries steps may continue. -/
def Query.isPrintableWith : Query → Bool
  | .reference name => isName name
  | .constant value => isQuotable value
  | .document path => path.isPrintable
  | .parenthesized inner => inner.isPrintableWith
  | .pair left right => left.isPrintableWith && right.isPrintableWith
  | .step query _ path => base query && query.isPrintableWith && path.isPrintable
  | .element name body => isName name && body.isPrintableWith
  | .join left right leftTags rightTags =>
      left.isPrintableWith && right.isPrintableWith && leftTags.all isName && rightTags.all isName
  | .letIn bindings body =>
      !bindings.isEmpty && Binding.arePrintableWith bindings && body.isPrintableWith
  | .flwr bindings lets condition result =>
      !bindings.isEmpty && Binding.arePrintableWith bindings && Binding.arePrintableWith lets &&
        Condition.isPrintableIfPresent condition && result.isPrintableWith

/-- Whether a condition can be read back. -/
def Condition.isPrintableWith : Condition → Bool
  | .valueEq left right => left.isPrintableWith && right.isPrintableWith
  | .identityEq left right => left.isPrintableWith && right.isPrintableWith
  | .empty query => query.isPrintableWith
  | .someSatisfies bindings body =>
      !bindings.isEmpty && Binding.arePrintableWith bindings && body.isPrintableWith
  | .parenthesized inner => inner.isPrintableWith
  | .and left right => left.isPrintableWith && right.isPrintableWith
  | .or left right => left.isPrintableWith && right.isPrintableWith
  | .not inner => inner.isPrintableWith

/-- Whether a condition can be read back, if there is one. -/
def Condition.isPrintableIfPresent : Option Condition → Bool
  | none => true
  | some condition => condition.isPrintableWith

/-- Whether bindings can be read back. -/
def Binding.arePrintableWith : List Binding → Bool
  | [] => true
  | ⟨name, source⟩ :: rest =>
      isName name && binder name && source.isPrintableWith && Binding.arePrintableWith rest
end

end

/-- Whether a query can be read back as it is: no path continues another. -/
def Query.isPrintable (query : Query) : Bool :=
  query.isPrintableWith (fun _ => true) fun base => !base.endsInPath

/-- Whether a condition can be read back as it is. -/
def Condition.isPrintable (condition : Condition) : Bool :=
  condition.isPrintableWith (fun _ => true) fun base => !base.endsInPath

/-- Whether bindings can be read back as they are. -/
def Binding.arePrintable (bindings : List Binding) : Bool :=
  Binding.arePrintableWith (fun _ => true) (fun base => !base.endsInPath) bindings

/-! ## Operands -/

namespace Query

variable (needed : Bool) (query : Query)

theorem tokens_parenthesized : (parenthesized query).tokens = "(" :: (query.tokens ++ [")"]) := by
  rw [tokens]
  rfl

theorem tokens_parenthesizedIf :
    (query.parenthesizedIf needed).tokens = enclosedIf needed query.tokens := by
  cases needed with
  | false => rfl
  | true => exact query.tokens_parenthesized

theorem explicit_parenthesizedIf :
    (query.parenthesizedIf needed).explicit = query.explicit.parenthesizedIf needed := by
  cases needed with
  | false => rfl
  | true =>
      show (parenthesized query).explicit = _
      rw [explicit]
      rfl

theorem isOpenEnded_parenthesizedIf :
    (query.parenthesizedIf needed).isOpenEnded = (!needed && query.isOpenEnded) := by
  cases needed <;> rfl

end Query

namespace Condition

variable (needed : Bool) (condition : Condition)

theorem tokens_parenthesized :
    (parenthesized condition).tokens = "(" :: (condition.tokens ++ [")"]) := by
  rw [tokens]
  rfl

theorem tokens_parenthesizedIf :
    (condition.parenthesizedIf needed).tokens = enclosedIf needed condition.tokens := by
  cases needed with
  | false => rfl
  | true => exact condition.tokens_parenthesized

theorem explicit_parenthesizedIf :
    (condition.parenthesizedIf needed).explicit = condition.explicit.parenthesizedIf needed := by
  cases needed with
  | false => rfl
  | true =>
      show (parenthesized condition).explicit = _
      rw [explicit]
      rfl

theorem isOpenEnded_parenthesizedIf :
    (condition.parenthesizedIf needed).isOpenEnded = (!needed && condition.isOpenEnded) := by
  cases needed <;> rfl

end Condition

end TreeQuery
