import TreeQuery.Proofs.Path.CommaFilters
import TreeQuery.Proofs.Query.Tokens

/-!
# Comma filters of queries

The comma filters of a query are those of its paths.  Each costs a pair of parentheses when what
was printed is read and printed again, and they are the only cause of a difference: an operand
whose parentheses are explicit needs no more of them.
-/

set_option autoImplicit false

namespace TreeQuery

/-- The number of comma filters in a document path. -/
def DocumentPath.commaFilters (path : DocumentPath) : Nat :=
  path.path.commaFilters

mutual
/-- The number of comma filters in the paths of a query. -/
def Query.commaFilters : Query → Nat
  | .reference _ | .constant _ => 0
  | .document path => path.commaFilters
  | .parenthesized inner => inner.commaFilters
  | .pair left right => left.commaFilters + right.commaFilters
  | .step base _ path => base.commaFilters + path.commaFilters
  | .element _ body => body.commaFilters
  | .join left right _ _ => left.commaFilters + right.commaFilters
  | .letIn bindings body => Binding.commaFilters bindings + body.commaFilters
  | .flwr bindings lets condition result =>
      Binding.commaFilters bindings + (Binding.commaFilters lets +
        (Condition.commaFiltersIfPresent condition + result.commaFilters))

/-- The number of comma filters in the paths of a condition. -/
def Condition.commaFilters : Condition → Nat
  | .valueEq left right => left.commaFilters + right.commaFilters
  | .identityEq left right => left.commaFilters + right.commaFilters
  | .empty query => query.commaFilters
  | .someSatisfies bindings body => Binding.commaFilters bindings + body.commaFilters
  | .parenthesized inner => inner.commaFilters
  | .and left right => left.commaFilters + right.commaFilters
  | .or left right => left.commaFilters + right.commaFilters
  | .not inner => inner.commaFilters

/-- The number of comma filters in a condition, if there is one. -/
def Condition.commaFiltersIfPresent : Option Condition → Nat
  | none => 0
  | some condition => condition.commaFilters

/-- The number of comma filters in the sources of bindings. -/
def Binding.commaFilters : List Binding → Nat
  | [] => 0
  | ⟨_, source⟩ :: rest => source.commaFilters + Binding.commaFilters rest
end

/-! ## Comma filters of explicit trees -/

@[simp] theorem Query.commaFilters_parenthesizedIf (needed : Bool) (query : Query) :
    (query.parenthesizedIf needed).commaFilters = query.commaFilters := by
  cases needed with
  | false => rfl
  | true =>
      show (parenthesized query).commaFilters = _
      rw [commaFilters]

@[simp] theorem Condition.commaFilters_parenthesizedIf (needed : Bool) (condition : Condition) :
    (condition.parenthesizedIf needed).commaFilters = condition.commaFilters := by
  cases needed with
  | false => rfl
  | true =>
      show (parenthesized condition).commaFilters = _
      rw [commaFilters]

theorem Path.commaFilters_operand (path : Path) (demanded : Nat) :
    (path.operand demanded).commaFilters = path.commaFilters := by
  rw [operand, commaFilters_parenthesizedIf]

theorem DocumentPath.commaFilters_explicit (path : DocumentPath) :
    path.explicit.commaFilters = path.commaFilters := by
  rw [explicit, commaFilters, Path.commaFilters_explicit, Path.commaFilters_operand, commaFilters]

mutual
theorem Query.commaFilters_explicit : (query : Query) →
    query.explicit.commaFilters = query.commaFilters
  | .reference _ | .constant _ => by rw [Query.explicit]
  | .document path => by
      rw [Query.explicit, Query.commaFilters, Query.commaFilters, path.commaFilters_explicit]
  | .parenthesized inner => by
      rw [Query.explicit, Query.commaFilters, Query.commaFilters, inner.commaFilters_explicit]
  | .pair left right => by
      simp [Query.explicit, Query.commaFilters, left.commaFilters_explicit,
        right.commaFilters_explicit]
  | .step base _ path => by
      simp [Query.explicit, Query.commaFilters, base.commaFilters_explicit,
        Path.commaFilters_explicit, Path.commaFilters_operand]
  | .element _ body => by
      rw [Query.explicit, Query.commaFilters, Query.commaFilters, body.commaFilters_explicit]
  | .join left right _ _ => by
      simp [Query.explicit, Query.commaFilters, left.commaFilters_explicit,
        right.commaFilters_explicit]
  | .letIn bindings body => by
      rw [Query.explicit, Query.commaFilters, Query.commaFilters,
        Binding.commaFilters_explicitAll bindings, body.commaFilters_explicit]
  | .flwr bindings lets condition result => by
      rw [Query.explicit, Query.commaFilters, Query.commaFilters,
        Binding.commaFilters_explicitAll bindings, Binding.commaFilters_explicitAll lets,
        Condition.commaFilters_explicitIfPresent condition, result.commaFilters_explicit]

theorem Condition.commaFilters_explicit : (condition : Condition) →
    condition.explicit.commaFilters = condition.commaFilters
  | .valueEq left right => by
      simp [Condition.explicit, Condition.commaFilters, left.commaFilters_explicit,
        right.commaFilters_explicit]
  | .identityEq left right => by
      simp [Condition.explicit, Condition.commaFilters, left.commaFilters_explicit,
        right.commaFilters_explicit]
  | .empty query => by
      rw [Condition.explicit, Condition.commaFilters, Condition.commaFilters,
        query.commaFilters_explicit]
  | .someSatisfies bindings body => by
      rw [Condition.explicit, Condition.commaFilters, Condition.commaFilters,
        Binding.commaFilters_explicitAll bindings, body.commaFilters_explicit]
  | .parenthesized inner => by
      rw [Condition.explicit, Condition.commaFilters, Condition.commaFilters,
        inner.commaFilters_explicit]
  | .and left right => by
      simp [Condition.explicit, Condition.commaFilters, left.commaFilters_explicit,
        right.commaFilters_explicit]
  | .or left right => by
      simp [Condition.explicit, Condition.commaFilters, left.commaFilters_explicit,
        right.commaFilters_explicit]
  | .not inner => by
      simp [Condition.explicit, Condition.commaFilters, inner.commaFilters_explicit]

theorem Condition.commaFilters_explicitIfPresent : (condition : Option Condition) →
    Condition.commaFiltersIfPresent (Condition.explicitIfPresent condition) =
      Condition.commaFiltersIfPresent condition
  | none => rfl
  | some condition => by
      rw [Condition.explicitIfPresent, Condition.commaFiltersIfPresent,
        Condition.commaFiltersIfPresent, condition.commaFilters_explicit]

theorem Binding.commaFilters_explicitAll : (bindings : List Binding) →
    Binding.commaFilters (Binding.explicitAll bindings) = Binding.commaFilters bindings
  | [] => rfl
  | ⟨_, source⟩ :: rest => by
      simp [Binding.explicitAll, Binding.commaFilters, source.commaFilters_explicit,
        Binding.commaFilters_explicitAll rest]
end

/-! ## What places demand -/

/-- A condition on operands under which they stand in parentheses: none that is in parentheses
meets it, and making parentheses explicit does not lead to it. -/
structure Query.Demand (needs : Query → Bool) : Prop where
  closed : ∀ query, needs (.parenthesized query) = false
  kept : ∀ query, needs query.explicit = true → needs query = true

structure Condition.Demand (needs : Condition → Bool) : Prop where
  closed : ∀ condition, needs (.parenthesized condition) = false
  kept : ∀ condition, needs condition.explicit = true → needs condition = true

theorem Query.tightness_explicit (query : Query) : query.explicit.tightness = query.tightness := by
  cases query <;> rw [explicit] <;> rfl

theorem Query.isOpenEnded_of_explicit : (query : Query) → query.explicit.isOpenEnded = true →
    query.isOpenEnded = true
  | .pair left right, openEnded => by
      rw [explicit, isOpenEnded, isOpenEnded_parenthesizedIf, Bool.and_eq_true] at openEnded
      exact right.isOpenEnded_of_explicit openEnded.2
  | .letIn _ _, _ | .flwr _ _ _ _, _ => rfl
  | .reference _, openEnded | .constant _, openEnded | .document _, openEnded
  | .parenthesized _, openEnded | .step _ _ _, openEnded | .element _ _, openEnded
  | .join _ _ _ _, openEnded => by
      rw [explicit] at openEnded
      exact openEnded

theorem Query.demand_openEnded : Demand isOpenEnded :=
  ⟨fun _ => rfl, isOpenEnded_of_explicit⟩

theorem Query.demand_tightness (demanded : Nat) (within : demanded ≤ 3) :
    Demand fun query => query.tightness < demanded :=
  ⟨fun _ => decide_eq_false (Nat.not_lt.2 within), fun query loose => by
    rwa [tightness_explicit] at loose⟩

theorem Query.demand_needsParentheses : Demand needsParentheses := by
  refine ⟨fun _ => rfl, fun query needs => ?_⟩
  rw [needsParentheses, Bool.or_eq_true, tightness_explicit] at needs
  rw [needsParentheses, Bool.or_eq_true]
  exact needs.imp_left query.isOpenEnded_of_explicit

theorem Condition.tightness_explicit (condition : Condition) :
    condition.explicit.tightness = condition.tightness := by
  cases condition <;> rw [explicit] <;> rfl

theorem Condition.isOpenEnded_of_explicit : (condition : Condition) →
    condition.explicit.isOpenEnded = true → condition.isOpenEnded = true
  | .and _ right, openEnded | .or _ right, openEnded => by
      rw [explicit, isOpenEnded, isOpenEnded_parenthesizedIf, Bool.and_eq_true] at openEnded
      exact right.isOpenEnded_of_explicit openEnded.2
  | .not inner, openEnded => by
      rw [explicit, isOpenEnded, isOpenEnded_parenthesizedIf, Bool.and_eq_true] at openEnded
      exact inner.isOpenEnded_of_explicit openEnded.2
  | .someSatisfies _ _, _ => rfl
  | .valueEq _ _, openEnded | .identityEq _ _, openEnded | .empty _, openEnded
  | .parenthesized _, openEnded => by
      rw [explicit] at openEnded
      exact openEnded

theorem Condition.demand_openEnded : Demand isOpenEnded :=
  ⟨fun _ => rfl, isOpenEnded_of_explicit⟩

theorem Condition.demand_tightness (demanded : Nat) (within : demanded ≤ 3) :
    Demand fun condition => condition.tightness < demanded :=
  ⟨fun _ => decide_eq_false (Nat.not_lt.2 within), fun condition loose => by
    rwa [tightness_explicit] at loose⟩

theorem Condition.demand_either {first second : Condition → Bool} (one : Demand first)
    (other : Demand second) : Demand fun condition => first condition || second condition := by
  refine ⟨fun condition => by rw [one.closed, other.closed]; rfl, fun condition needs => ?_⟩
  rw [Bool.or_eq_true] at needs ⊢
  exact needs.imp (one.kept condition) (other.kept condition)

/-! ## Tokens of explicit trees -/

theorem Query.Demand.length_tokens {needs : Query → Bool} (demand : Demand needs) {query : Query}
    (same : query.explicit.tokens.length = query.tokens.length + 2 * query.commaFilters) :
    let operand := query.explicit.parenthesizedIf (needs query)
    (enclosedIf (needs operand) operand.tokens).length =
      (enclosedIf (needs query) query.tokens).length + 2 * query.commaFilters := by
  intro operand
  have printed : enclosedIf (needs operand) operand.tokens =
      enclosedIf (needs query) query.explicit.tokens :=
    enclose_operand Query.parenthesized needs query.explicit (fun _ => rfl)
      (by rw [Query.tokens]) (demand.closed _) (demand.kept query)
  rw [printed, length_enclosedIf, length_enclosedIf, same]
  omega

theorem Condition.Demand.length_tokens {needs : Condition → Bool} (demand : Demand needs)
    {condition : Condition} (same : condition.explicit.tokens.length =
      condition.tokens.length + 2 * condition.commaFilters) :
    let operand := condition.explicit.parenthesizedIf (needs condition)
    (enclosedIf (needs operand) operand.tokens).length =
      (enclosedIf (needs condition) condition.tokens).length + 2 * condition.commaFilters := by
  intro operand
  have printed : enclosedIf (needs operand) operand.tokens =
      enclosedIf (needs condition) condition.explicit.tokens :=
    enclose_operand Condition.parenthesized needs condition.explicit (fun _ => rfl)
      (by rw [Condition.tokens]) (demand.closed _) (demand.kept condition)
  rw [printed, length_enclosedIf, length_enclosedIf, same]
  omega

theorem Path.operand_operand (path : Path) {demanded : Nat} (within : demanded ≤ 3) :
    (path.operand demanded).explicit.operand demanded = (path.operand demanded).explicit := by
  have tight := path.le_tightness_operand demanded within
  rw [operand, tightness_explicit, decide_eq_false (Nat.not_lt.2 tight)]
  rfl

/-- A path behind an axis in a query. -/
theorem Path.length_tokens_explicit_operand (path : Path) :
    ((path.operand 1).explicit.operand 1).tokens.length =
      (path.operand 1).tokens.length + 2 * path.commaFilters := by
  rw [path.operand_operand (by decide), length_tokens_explicit, commaFilters_operand]

theorem DocumentPath.length_tokens_explicit (path : DocumentPath) :
    path.explicit.tokens.length = path.tokens.length + 2 * path.commaFilters := by
  have same := path.path.length_tokens_explicit_operand
  simp only [explicit, tokens, commaFilters, List.length_cons, same]
  omega

theorem Binding.isEmpty_explicitAll (bindings : List Binding) :
    (Binding.explicitAll bindings).isEmpty = bindings.isEmpty := by
  cases bindings with
  | nil => rfl
  | cons binding rest =>
      obtain ⟨_, _⟩ := binding
      rw [Binding.explicitAll]
      rfl

/-- The tokens of bindings after the first comma. -/
theorem Binding.length_tail_tokensAll {operator : String} (bindings : List Binding)
    (same : (Binding.tokensAll operator (Binding.explicitAll bindings)).length =
      (Binding.tokensAll operator bindings).length + 2 * Binding.commaFilters bindings) :
    (Binding.tokensAll operator (Binding.explicitAll bindings)).tail.length =
      (Binding.tokensAll operator bindings).tail.length + 2 * Binding.commaFilters bindings := by
  cases bindings with
  | nil => rfl
  | cons binding rest =>
      obtain ⟨name, source⟩ := binding
      rw [List.length_tail, List.length_tail, same]
      simp only [Binding.tokensAll, List.length_cons]
      omega

mutual
/-- Every comma filter costs a pair of parentheses when what was printed is printed again. -/
theorem Query.length_tokens_explicit : (query : Query) →
    query.explicit.tokens.length = query.tokens.length + 2 * query.commaFilters
  | .reference _ | .constant _ => by rw [Query.explicit, Query.commaFilters]; rfl
  | .document path => by
      rw [Query.explicit, Query.tokens, Query.tokens, Query.commaFilters,
        path.length_tokens_explicit]
  | .parenthesized inner => by
      have same := inner.length_tokens_explicit
      rw [Query.explicit, Query.tokens_parenthesized, Query.tokens_parenthesized,
        Query.commaFilters]
      simp only [List.length_cons, List.length_append, same]
      omega
  | .pair left right => by
      have sameLeft := Query.demand_openEnded.length_tokens left.length_tokens_explicit
      have sameRight := (Query.demand_tightness 1 (by decide)).length_tokens
        right.length_tokens_explicit
      simp only [Query.explicit, Query.tokens, Query.commaFilters, List.length_append,
        List.length_cons, sameLeft, sameRight]
      omega
  | .step base _ path => by
      have sameBase := (Query.demand_tightness 2 (by decide)).length_tokens
        base.length_tokens_explicit
      simp only [Query.explicit, Query.tokens, Query.commaFilters, List.length_append,
        List.length_cons, sameBase, path.length_tokens_explicit_operand]
      omega
  | .element _ body => by
      have same := body.length_tokens_explicit
      simp only [Query.explicit, Query.tokens, Query.commaFilters, List.length_append,
        List.length_cons, same]
      omega
  | .join left right _ _ => by
      have sameLeft := Query.demand_needsParentheses.length_tokens left.length_tokens_explicit
      have sameRight := Query.demand_needsParentheses.length_tokens right.length_tokens_explicit
      simp only [Query.explicit, Query.tokens, Query.commaFilters, List.length_append,
        List.length_cons, sameLeft, sameRight]
      omega
  | .letIn bindings body => by
      have sameBindings := Binding.length_tail_tokensAll bindings
        (Binding.length_tokensAll_explicitAll ":=" bindings)
      simp only [Query.explicit, Query.tokens, Query.commaFilters, List.length_append,
        List.length_cons, sameBindings, body.length_tokens_explicit]
      omega
  | .flwr bindings lets condition result => by
      have sameBindings := Binding.length_tail_tokensAll bindings
        (Binding.length_tokensAll_explicitAll "in" bindings)
      have sameLets := Binding.length_tail_tokensAll lets
        (Binding.length_tokensAll_explicitAll ":=" lets)
      have sameWhere := Condition.length_tokensWhere_explicit condition
      simp only [Query.explicit, Query.tokens, Query.commaFilters, Binding.isEmpty_explicitAll,
        List.length_append, List.length_cons, sameBindings, sameWhere,
        result.length_tokens_explicit]
      cases lets with
      | nil =>
          simp only [List.isEmpty_nil, if_true, List.length_nil, Binding.commaFilters]
          omega
      | cons first rest =>
          simp only [List.isEmpty_cons, Bool.false_eq_true, if_false, List.length_cons, sameLets]
          omega

theorem Condition.length_tokens_explicit : (condition : Condition) →
    condition.explicit.tokens.length = condition.tokens.length + 2 * condition.commaFilters
  | .valueEq left right => by
      have sameLeft := Query.demand_needsParentheses.length_tokens left.length_tokens_explicit
      have sameRight := Query.demand_needsParentheses.length_tokens right.length_tokens_explicit
      simp only [Condition.explicit, Condition.tokens, Condition.commaFilters,
        List.length_append, List.length_cons, sameLeft, sameRight]
      omega
  | .identityEq left right => by
      have sameLeft := Query.demand_needsParentheses.length_tokens left.length_tokens_explicit
      have sameRight := Query.demand_needsParentheses.length_tokens right.length_tokens_explicit
      simp only [Condition.explicit, Condition.tokens, Condition.commaFilters,
        List.length_append, List.length_cons, sameLeft, sameRight]
      omega
  | .empty query => by
      have same := query.length_tokens_explicit
      simp only [Condition.explicit, Condition.tokens, Condition.commaFilters,
        List.length_append, List.length_cons, same]
      omega
  | .someSatisfies bindings body => by
      have sameBindings := Binding.length_tail_tokensAll bindings
        (Binding.length_tokensAll_explicitAll "in" bindings)
      simp only [Condition.explicit, Condition.tokens, Condition.commaFilters,
        List.length_append, List.length_cons, sameBindings, body.length_tokens_explicit]
      omega
  | .parenthesized inner => by
      have same := inner.length_tokens_explicit
      rw [Condition.explicit, Condition.tokens_parenthesized, Condition.tokens_parenthesized,
        Condition.commaFilters]
      simp only [List.length_cons, List.length_append, same]
      omega
  | .and left right => by
      have sameLeft := (Condition.demand_either Condition.demand_openEnded
        (Condition.demand_tightness 1 (by decide))).length_tokens
          left.length_tokens_explicit
      have sameRight := (Condition.demand_tightness 2 (by decide)).length_tokens
        right.length_tokens_explicit
      simp only [Condition.explicit, Condition.tokens, Condition.commaFilters,
        List.length_append, List.length_cons, sameLeft, sameRight]
      omega
  | .or left right => by
      have sameLeft := Condition.demand_openEnded.length_tokens left.length_tokens_explicit
      have sameRight := (Condition.demand_tightness 1 (by decide)).length_tokens
        right.length_tokens_explicit
      simp only [Condition.explicit, Condition.tokens, Condition.commaFilters,
        List.length_append, List.length_cons, sameLeft, sameRight]
      omega
  | .not inner => by
      have same := (Condition.demand_tightness 2 (by decide)).length_tokens
        inner.length_tokens_explicit
      simp only [Condition.explicit, Condition.tokens, Condition.commaFilters, List.length_cons,
        same]
      omega

theorem Condition.length_tokensWhere_explicit : (condition : Option Condition) →
    (Condition.tokensWhere (Condition.explicitIfPresent condition)).length =
      (Condition.tokensWhere condition).length + 2 * Condition.commaFiltersIfPresent condition
  | none => rfl
  | some condition => by
      have same := condition.length_tokens_explicit
      simp only [Condition.explicitIfPresent, Condition.tokensWhere,
        Condition.commaFiltersIfPresent, List.length_cons, same]
      omega

theorem Binding.length_tokensAll_explicitAll (operator : String) : (bindings : List Binding) →
    (Binding.tokensAll operator (Binding.explicitAll bindings)).length =
      (Binding.tokensAll operator bindings).length + 2 * Binding.commaFilters bindings
  | [] => rfl
  | ⟨_, source⟩ :: rest => by
      have same := Query.demand_needsParentheses.length_tokens source.length_tokens_explicit
      have sameRest := Binding.length_tokensAll_explicitAll operator rest
      simp only [Binding.explicitAll, Binding.tokensAll, Binding.commaFilters,
        List.length_append, List.length_cons, same, sameRest]
      omega
end

end TreeQuery
