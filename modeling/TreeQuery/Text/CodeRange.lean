/-!
# Ranges of code points

A property of characters is given by the ranges of code points that have it, from the
lowest to the highest and with a gap between any two.  Membership is decided by going
through the ranges; that a table is in order says that no range of it is redundant.
-/

set_option autoImplicit false

namespace TreeQuery.Text

/-- A range of code points, both ends included. -/
structure CodeRange where
  first : Nat
  last : Nat

/-- Whether a code point lies in a range. -/
def CodeRange.contains (range : CodeRange) (code : Nat) : Bool :=
  range.first ≤ code && code ≤ range.last

/-- Whether a character lies in one of the ranges. -/
def inRanges (ranges : List CodeRange) (c : Char) : Bool :=
  ranges.any fun range => range.contains c.toNat

/-- No range is empty, and each one ends more than one code point before the next. -/
def ascending : List CodeRange → Bool
  | [] => true
  | [range] => range.first ≤ range.last
  | range :: next :: rest =>
      range.first ≤ range.last && range.last + 1 < next.first && ascending (next :: rest)

/-- The number of code points in the ranges of a table that is in order. -/
def codeCount (ranges : List CodeRange) : Nat :=
  ranges.foldl (fun count range => count + (range.last + 1 - range.first)) 0

end TreeQuery.Text
