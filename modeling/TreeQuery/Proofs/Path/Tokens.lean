import TreeQuery.Path.Printer
import TreeQuery.Proofs.Grammar.Tokens

/-!
# Tokens of paths and filters

A path is printed as a sequence of tokens with parentheses where a part binds less tightly
than its place demands.  `Path.tokens` and `Filter.tokens` are those sequences, and
`Path.explicit` and `Filter.explicit` are the trees in which the parentheses that printing
adds are nodes: they are what the tokens are read as.  Parentheses around a whole filter are
read as parentheses of the filter, also where they belonged to its path (`Path.asFilter`).

An expression is printable if its names are names, its tags are not reserved and its strings
fit between double quotes.
-/

set_option autoImplicit false

namespace TreeQuery

open Grammar

/-- Tokens in parentheses where they are needed. -/
def enclosedIf (needed : Bool) (tokens : List String) : List String :=
  if needed then "(" :: (tokens ++ [")"]) else tokens

/-- A path in parentheses where they are needed. -/
def Path.parenthesizedIf (needed : Bool) (path : Path) : Path :=
  if needed then .parenthesized path else path

/-- A filter in parentheses where they are needed. -/
def Filter.parenthesizedIf (needed : Bool) (filter : Filter) : Filter :=
  if needed then .parenthesized filter else filter

/-- The filter that a path is where a filter is due: parentheses around the whole path are
parentheses of the filter. -/
def Path.asFilter : Path → Filter
  | .parenthesized inner => .parenthesized inner.asFilter
  | path => .path path

mutual
/-- The tokens of a printed path. -/
def Path.tokens : Path → List String
  | .tag name => [name]
  | .wildcard => ["*"]
  | .current => ["."]
  | .parent => [".."]
  | .text => ["text", "(", ")"]
  | .attribute name => [attributeToken name]
  | .parenthesized inner => enclosedIf true inner.tokens
  | .step left axis right =>
      enclosedIf (left.tightness < 1) left.tokens ++
        axis.separator :: enclosedIf (right.tightness < 2) right.tokens
  | .filtered base filter =>
      enclosedIf (base.tightness < 2) base.tokens ++ "[" :: (filter.tokens ++ ["]"])
  | .pair left right => left.tokens ++ "," :: enclosedIf (right.tightness < 1) right.tokens

/-- The tokens of a printed filter. -/
def Filter.tokens : Filter → List String
  | .path path => enclosedIf (path.tightness < 1) path.tokens
  | .valueEq left right =>
      enclosedIf (left.tightness < 1) left.tokens ++
        "=" :: enclosedIf (right.tightness < 1) right.tokens
  | .identityEq left right =>
      enclosedIf (left.tightness < 1) left.tokens ++
        "==" :: enclosedIf (right.tightness < 1) right.tokens
  | .constantEq path value =>
      enclosedIf (path.tightness < 1) path.tokens ++ ["=", stringToken value]
  | .parenthesized inner => enclosedIf true inner.tokens
  | .and left right =>
      enclosedIf (left.tightness < 1) left.tokens ++
        "and" :: enclosedIf (right.tightness < 2) right.tokens
  | .or left right => left.tokens ++ "or" :: enclosedIf (right.tightness < 1) right.tokens
  | .not inner => "not" :: enclosedIf (inner.tightness < 2) inner.tokens
end

mutual
/-- The path in which the parentheses that printing adds are nodes. -/
def Path.explicit : Path → Path
  | .parenthesized inner => .parenthesized inner.explicit
  | .step left axis right =>
      .step (left.explicit.parenthesizedIf (left.tightness < 1)) axis
        (right.explicit.parenthesizedIf (right.tightness < 2))
  | .filtered base filter =>
      .filtered (base.explicit.parenthesizedIf (base.tightness < 2)) filter.explicit
  | .pair left right => .pair left.explicit (right.explicit.parenthesizedIf (right.tightness < 1))
  | .tag name => .tag name
  | .wildcard => .wildcard
  | .current => .current
  | .parent => .parent
  | .text => .text
  | .attribute name => .attribute name

/-- The filter in which the parentheses that printing adds are nodes. -/
def Filter.explicit : Filter → Filter
  | .path path => (path.explicit.parenthesizedIf (path.tightness < 1)).asFilter
  | .valueEq left right =>
      .valueEq (left.explicit.parenthesizedIf (left.tightness < 1))
        (right.explicit.parenthesizedIf (right.tightness < 1))
  | .identityEq left right =>
      .identityEq (left.explicit.parenthesizedIf (left.tightness < 1))
        (right.explicit.parenthesizedIf (right.tightness < 1))
  | .constantEq path value =>
      .constantEq (path.explicit.parenthesizedIf (path.tightness < 1)) value
  | .parenthesized inner => .parenthesized inner.explicit
  | .and left right =>
      .and (left.explicit.parenthesizedIf (left.tightness < 1))
        (right.explicit.parenthesizedIf (right.tightness < 2))
  | .or left right => .or left.explicit (right.explicit.parenthesizedIf (right.tightness < 1))
  | .not inner => .not (inner.explicit.parenthesizedIf (inner.tightness < 2))
end

mutual
/-- Whether the names and strings of a path can be read back. -/
def Path.isPrintable : Path → Bool
  | .tag name => isTagName name
  | .attribute name => isName name
  | .parenthesized inner => inner.isPrintable
  | .step left _ right => left.isPrintable && right.isPrintable
  | .filtered base filter => base.isPrintable && filter.isPrintable
  | .pair left right => left.isPrintable && right.isPrintable
  | .wildcard | .current | .parent | .text => true

/-- Whether the names and strings of a filter can be read back. -/
def Filter.isPrintable : Filter → Bool
  | .path path => path.isPrintable
  | .valueEq left right => left.isPrintable && right.isPrintable
  | .identityEq left right => left.isPrintable && right.isPrintable
  | .constantEq path value => path.isPrintable && isQuotable value
  | .parenthesized inner => inner.isPrintable
  | .and left right => left.isPrintable && right.isPrintable
  | .or left right => left.isPrintable && right.isPrintable
  | .not inner => inner.isPrintable
end

/-! ## Operands -/

/-- A path as it stands where a part of some tightness is due. -/
def Path.operand (demanded : Nat) (path : Path) : Path :=
  path.parenthesizedIf (path.tightness < demanded)

/-- A filter as it stands where a part of some tightness is due. -/
def Filter.operand (demanded : Nat) (filter : Filter) : Filter :=
  filter.parenthesizedIf (filter.tightness < demanded)

namespace Path

variable (path : Path) (demanded : Nat)

theorem tokens_operand :
    (path.operand demanded).tokens = enclosedIf (path.tightness < demanded) path.tokens := by
  rw [operand, parenthesizedIf]
  split
  · next needed => rw [tokens, needed]
  · next unneeded => rw [Bool.not_eq_true] at unneeded; rw [unneeded]; rfl

theorem explicit_operand : (path.operand demanded).explicit =
    path.explicit.parenthesizedIf (path.tightness < demanded) := by
  rw [operand, parenthesizedIf, parenthesizedIf]
  split
  · rw [explicit]
  · rfl

theorem le_tightness_operand (within : demanded ≤ 3) :
    demanded ≤ (path.operand demanded).tightness := by
  rw [operand, parenthesizedIf]
  split
  · exact within
  · next unneeded => simpa using unneeded

theorem tokens_parenthesized : (parenthesized path).tokens = "(" :: (path.tokens ++ [")"]) := by
  rw [tokens]
  rfl

end Path

namespace Filter

variable (filter : Filter) (demanded : Nat)

theorem tokens_operand :
    (filter.operand demanded).tokens = enclosedIf (filter.tightness < demanded) filter.tokens := by
  rw [operand, parenthesizedIf]
  split
  · next needed => rw [tokens, needed]
  · next unneeded => rw [Bool.not_eq_true] at unneeded; rw [unneeded]; rfl

theorem explicit_operand : (filter.operand demanded).explicit =
    filter.explicit.parenthesizedIf (filter.tightness < demanded) := by
  rw [operand, parenthesizedIf, parenthesizedIf]
  split
  · rw [explicit]
  · rfl

theorem le_tightness_operand (within : demanded ≤ 3) :
    demanded ≤ (filter.operand demanded).tightness := by
  rw [operand, parenthesizedIf]
  split
  · exact within
  · next unneeded => simpa using unneeded

theorem tokens_parenthesized :
    (parenthesized filter).tokens = "(" :: (filter.tokens ++ [")"]) := by
  rw [tokens]
  rfl

end Filter

end TreeQuery
