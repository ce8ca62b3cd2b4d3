import TreeQuery.Failure
import TreeQuery.Query.Basic
import TreeQuery.Text.Number

/-!
# Renaming variables

Renaming gives every variable that a query binds a new name: `v1`, `v2` and so on, in
the order in which the bindings are reached, each after its source.  No two bindings
then share a name, also across queries renamed with one counter.  References follow
their bindings; a reference that nothing binds is a failure in strict renaming and
otherwise becomes a reference to a name of its own kind.
-/

set_option autoImplicit false

namespace TreeQuery

/-- A computation that hands out numbers and can fail; the numbers handed out stay
handed out. -/
abbrev Renaming : Type → Type := EStateM Failure Nat

/-- The new names of the variables in scope, innermost binding first. -/
abbrev NewNames : Type := List (String × String)

namespace Renaming

/-- The name that stands for all references that nothing binds. -/
def undefinedName : String := "Undefined"

/-- The name with a number. -/
def numbered (number : Nat) : String := "v" ++ toString number

/-- A name that has not been handed out before. -/
def fresh : Renaming String := do
  let number := (← get) + 1
  set number
  return numbered number

/-- Names with different numbers are different. -/
theorem numbered_inj {first second : Nat} : numbered first = numbered second ↔ first = second := by
  refine ⟨fun same => Text.eq_of_toString_eq ?_, fun same => same ▸ rfl⟩
  apply String.toList_inj.mp
  simpa [numbered] using congrArg String.toList same

/-- No handed-out name is the one of references that nothing binds. -/
theorem numbered_ne_undefinedName (number : Nat) : numbered number ≠ undefinedName := by
  intro same
  have characters := congrArg String.toList same
  simp [numbered, undefinedName] at characters

/-- The new name of a reference. -/
def resolve (strict : Bool) (names : NewNames) (name : String) : Renaming String :=
  match names.lookup name with
  | some newName => return newName
  | none => if strict then throw (.unboundVariable name) else return undefinedName

end Renaming

open Renaming

mutual
/-- A query with new names. -/
def Query.renameIn (strict : Bool) (query : Query) (names : NewNames) : Renaming Query :=
  match query with
  | .reference name => do return .reference (← resolve strict names name)
  | .constant value => return .constant value
  | .document path => return .document path
  | .parenthesized inner => do return .parenthesized (← inner.renameIn strict names)
  | .pair left right => do
      let left ← left.renameIn strict names
      let right ← right.renameIn strict names
      return .pair left right
  | .step base axis path => do return .step (← base.renameIn strict names) axis path
  | .element name body => do return .element name (← body.renameIn strict names)
  | .join left right leftTags rightTags => do
      let left ← left.renameIn strict names
      let right ← right.renameIn strict names
      return .join left right leftTags rightTags
  | .letIn bindings body => do
      let (bindings, inner) ← Binding.renameApart strict bindings names names
      let body ← body.renameIn strict inner
      return .letIn bindings body
  | .flwr bindings lets condition result => do
      let (bindings, names) ← Binding.renameInOrder strict bindings names
      let (lets, names) ← Binding.renameInOrder strict lets names
      let condition ← Condition.renameIfPresent strict condition names
      let result ← result.renameIn strict names
      return .flwr bindings lets condition result

/-- A condition with new names. -/
def Condition.renameIn (strict : Bool) (condition : Condition) (names : NewNames) :
    Renaming Condition :=
  match condition with
  | .valueEq left right => do
      let left ← left.renameIn strict names
      let right ← right.renameIn strict names
      return .valueEq left right
  | .identityEq left right => do
      let left ← left.renameIn strict names
      let right ← right.renameIn strict names
      return .identityEq left right
  | .empty query => do return .empty (← query.renameIn strict names)
  | .someSatisfies bindings body => do
      let (bindings, names) ← Binding.renameInOrder strict bindings names
      let body ← body.renameIn strict names
      return .someSatisfies bindings body
  | .parenthesized inner => do return .parenthesized (← inner.renameIn strict names)
  | .and left right => do
      let left ← left.renameIn strict names
      let right ← right.renameIn strict names
      return .and left right
  | .or left right => do
      let left ← left.renameIn strict names
      let right ← right.renameIn strict names
      return .or left right
  | .not inner => do return .not (← inner.renameIn strict names)

/-- A condition with new names, if there is one. -/
def Condition.renameIfPresent (strict : Bool) (condition : Option Condition)
    (names : NewNames) : Renaming (Option Condition) :=
  match condition with
  | none => return none
  | some condition => do return some (← condition.renameIn strict names)

/-- Bindings with new names, each source seeing the variables before it, and the names in
scope behind them. -/
def Binding.renameInOrder (strict : Bool) (bindings : List Binding) (names : NewNames) :
    Renaming (List Binding × NewNames) :=
  match bindings with
  | [] => return ([], names)
  | ⟨name, source⟩ :: rest => do
      let source ← source.renameIn strict names
      let newName ← fresh
      let (rest, inner) ← Binding.renameInOrder strict rest ((name, newName) :: names)
      return (⟨newName, source⟩ :: rest, inner)

/-- Bindings with new names, no source seeing the variables of the clause, and the names
in scope behind them. -/
def Binding.renameApart (strict : Bool) (bindings : List Binding) (outer inner : NewNames) :
    Renaming (List Binding × NewNames) :=
  match bindings with
  | [] => return ([], inner)
  | ⟨name, source⟩ :: rest => do
      let source ← source.renameIn strict outer
      let newName ← fresh
      let (rest, inner) ← Binding.renameApart strict rest outer ((name, newName) :: inner)
      return (⟨newName, source⟩ :: rest, inner)
end

/-- A whole query with new names, the first of them after the numbers handed out. -/
def Query.renaming (strict : Bool) (query : Query) : Renaming Query :=
  query.renameIn strict []

/-- A whole query with new names from `v1` on; references that nothing binds are no
failure. -/
def Query.rename (query : Query) : Query :=
  match (query.renaming false).run 0 with
  | .ok renamed _ => renamed
  | .error _ _ => query

end TreeQuery
