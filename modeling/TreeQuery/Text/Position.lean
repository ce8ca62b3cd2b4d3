/-!
# Positions in a text

A position is a line and a column, both counted from one.  Lines end at line feeds and
columns count characters, so a carriage return that stands alone is a column like any
other, and one before a line feed is never the last column seen.
-/

set_option autoImplicit false

namespace TreeQuery.Text

/-- A line and a column, both counted from one. -/
structure Position where
  line : Nat
  column : Nat
  deriving DecidableEq

namespace Position

/-- The position of the first character. -/
def start : Position := ⟨1, 1⟩

/-- The position after one more character. -/
def advance (position : Position) (c : Char) : Position :=
  if c = '\n' then ⟨position.line + 1, 1⟩ else ⟨position.line, position.column + 1⟩

/-- The position after all characters of a text. -/
def after (text : List Char) : Position :=
  text.foldl advance start

/-- The position of the character with the given number of characters before it. -/
def ofOffset (text : String) (offset : Nat) : Position :=
  after (text.toList.take offset)

/-- Lines and columns are counted from one. -/
theorem one_le_after (text : List Char) : 1 ≤ (after text).line ∧ 1 ≤ (after text).column := by
  have kept : ∀ (rest : List Char) (position : Position),
      1 ≤ position.line ∧ 1 ≤ position.column →
        1 ≤ (rest.foldl advance position).line ∧ 1 ≤ (rest.foldl advance position).column := by
    intro rest
    induction rest with
    | nil => exact fun _ counted => counted
    | cons c rest ih =>
        intro position counted
        refine ih (position.advance c) ?_
        unfold advance
        split
        · exact ⟨Nat.le_add_left 1 position.line, Nat.le_refl 1⟩
        · exact ⟨counted.1, Nat.le_add_left 1 position.column⟩
  exact kept text start ⟨Nat.le_refl 1, Nat.le_refl 1⟩

end Position

end TreeQuery.Text
