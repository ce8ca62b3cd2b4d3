import TreeQuery.Query.Basic

/-!
# Names of an expression

Join planning invents names for fields and for a variable.  `Flwr.names` lists every
variable name that occurs in an expression, bound or referred to, and `freshName` finds
a name outside a list that resembles a given one.
-/

set_option autoImplicit false

namespace TreeQuery

mutual
/-- The variable names that occur in a query. -/
def Query.names : Query → List String
  | .reference name => [name]
  | .constant _ | .document _ => []
  | .parenthesized inner => inner.names
  | .pair left right => left.names ++ right.names
  | .step base _ _ => base.names
  | .element _ body => body.names
  | .join left right _ _ => left.names ++ right.names
  | .letIn bindings body => Binding.namesOf bindings ++ body.names
  | .flwr bindings lets condition result =>
      Binding.namesOf bindings ++ Binding.namesOf lets ++ Condition.namesIfPresent condition ++
        result.names

/-- The variable names that occur in a condition. -/
def Condition.names : Condition → List String
  | .valueEq left right => left.names ++ right.names
  | .identityEq left right => left.names ++ right.names
  | .empty query => query.names
  | .someSatisfies bindings body => Binding.namesOf bindings ++ body.names
  | .parenthesized inner => inner.names
  | .and left right => left.names ++ right.names
  | .or left right => left.names ++ right.names
  | .not inner => inner.names

/-- The variable names that occur in a condition, if there is one. -/
def Condition.namesIfPresent : Option Condition → List String
  | none => []
  | some condition => condition.names

/-- The variable names that occur in bindings. -/
def Binding.namesOf : List Binding → List String
  | [] => []
  | ⟨name, source⟩ :: rest => name :: source.names ++ Binding.namesOf rest
end

/-- The variable names that occur in an expression without lets. -/
def Flwr.names (flwr : Flwr) : List String :=
  Binding.namesOf flwr.bindings ++ Condition.namesIfPresent flwr.condition ++ flwr.result.names

/-- A name with a number. -/
def numberedName (base : String) (number : Nat) : String :=
  base ++ "_" ++ toString number

/-- The first of a name and its numbered forms, from two on, that is not in a list.  Of
more numbered forms than the list has members, one is not in it. -/
def freshName (used : List String) (base : String) : String :=
  let candidates := (List.range (used.length + 1)).map fun count => numberedName base (count + 2)
  ((base :: candidates).find? (!used.contains ·)).getD base

end TreeQuery
