import TreeQuery.Proofs.Path.Tokens

/-!
# Filters that are commas of paths

A filter that is a comma of paths is printed in parentheses.  They are read as parentheses of
the filter, within which the path is printed in parentheses once more: with every comma filter,
reading back what was printed makes the next print longer by one pair of parentheses.  Without
comma filters the parentheses that printing adds are the ones it would add again, and the print
stays the same.
-/

set_option autoImplicit false

namespace TreeQuery

/-- Whether a path is a comma of paths, in parentheses or not. -/
def Path.isComma : Path → Bool
  | .pair _ _ => true
  | .parenthesized inner => inner.isComma
  | _ => false

mutual
/-- The number of comma filters in a path. -/
def Path.commaFilters : Path → Nat
  | .parenthesized inner => inner.commaFilters
  | .step left _ right => left.commaFilters + right.commaFilters
  | .filtered base filter => base.commaFilters + filter.commaFilters
  | .pair left right => left.commaFilters + right.commaFilters
  | .tag _ | .wildcard | .current | .parent | .text | .attribute _ => 0

/-- The number of comma filters in a filter, itself included. -/
def Filter.commaFilters : Filter → Nat
  | .path path => path.isComma.toNat + path.commaFilters
  | .valueEq left right => left.commaFilters + right.commaFilters
  | .identityEq left right => left.commaFilters + right.commaFilters
  | .constantEq path _ => path.commaFilters
  | .parenthesized inner => inner.commaFilters
  | .and left right => left.commaFilters + right.commaFilters
  | .or left right => left.commaFilters + right.commaFilters
  | .not inner => inner.commaFilters
end

theorem length_enclosedIf (needed : Bool) (tokens : List String) :
    (enclosedIf needed tokens).length = tokens.length + 2 * needed.toNat := by
  cases needed <;> simp [enclosedIf]

/-! ## Printing explicit parentheses -/

/-- An operand whose parentheses have become explicit is printed as before: it needs no further
ones, and its own are printed as those that were added to it. -/
theorem enclose_operand {α β : Type} (wrap : β → β) (needs : β → Bool) (operand : β)
    {enclose : Bool → α → α} {print : β → α} (bare : ∀ text, enclose false text = text)
    (enclosed : print (wrap operand) = enclose true (print operand))
    (closed : needs (wrap operand) = false) {needed : Bool}
    (kept : needs operand = true → needed = true) :
    enclose (needs (if needed then wrap operand else operand))
        (print (if needed then wrap operand else operand)) =
      enclose needed (print operand) := by
  cases needed with
  | false =>
      have unneeded : needs operand = false := by simpa using kept
      simp only [Bool.false_eq_true, if_false, unneeded]
  | true => simp only [if_true, closed, bare, enclosed]

@[simp] theorem Path.tightness_explicit (path : Path) :
    path.explicit.tightness = path.tightness := by
  cases path <;> simp [explicit, tightness]

theorem Path.tightness_asFilter (path : Path) : path.asFilter.tightness = 3 := by
  cases path <;> simp [asFilter, Filter.tightness]

@[simp] theorem Filter.tightness_explicit (filter : Filter) :
    filter.explicit.tightness = filter.tightness := by
  cases filter with
  | path path =>
      rw [explicit, Path.tightness_asFilter]
      rfl
  | _ => simp [explicit, tightness]

/-! ## Comma filters of explicit trees -/

theorem Path.isComma_parenthesizedIf (needed : Bool) (path : Path) :
    (path.parenthesizedIf needed).isComma = path.isComma := by
  cases needed <;> rfl

theorem Path.isComma_explicit : (path : Path) → path.explicit.isComma = path.isComma
  | .parenthesized inner => by
      rw [explicit, isComma, isComma, inner.isComma_explicit]
  | .step _ _ _ | .filtered _ _ | .pair _ _ | .tag _ | .wildcard | .current | .parent | .text
  | .attribute _ => by
      simp [explicit, isComma]

@[simp] theorem Path.commaFilters_parenthesizedIf (needed : Bool) (path : Path) :
    (path.parenthesizedIf needed).commaFilters = path.commaFilters := by
  cases needed with
  | false => rfl
  | true =>
      show (parenthesized path).commaFilters = _
      rw [commaFilters]

@[simp] theorem Filter.commaFilters_parenthesizedIf (needed : Bool) (filter : Filter) :
    (filter.parenthesizedIf needed).commaFilters = filter.commaFilters := by
  cases needed with
  | false => rfl
  | true =>
      show (parenthesized filter).commaFilters = _
      rw [commaFilters]

theorem Path.commaFilters_asFilter : (path : Path) →
    path.asFilter.commaFilters = path.isComma.toNat + path.commaFilters
  | .parenthesized inner => by
      rw [asFilter, Filter.commaFilters, inner.commaFilters_asFilter, isComma, commaFilters]
  | .step _ _ _ | .filtered _ _ | .pair _ _ | .tag _ | .wildcard | .current | .parent | .text
  | .attribute _ => by
      rw [asFilter, Filter.commaFilters]
      simp

mutual
theorem Path.commaFilters_explicit : (path : Path) →
    path.explicit.commaFilters = path.commaFilters
  | .tag _ | .wildcard | .current | .parent | .text | .attribute _ => by rw [Path.explicit]
  | .parenthesized inner => by
      rw [Path.explicit, Path.commaFilters, Path.commaFilters, inner.commaFilters_explicit]
  | .step left _ right => by
      simp [Path.explicit, Path.commaFilters, left.commaFilters_explicit,
        right.commaFilters_explicit]
  | .filtered base filter => by
      simp [Path.explicit, Path.commaFilters, base.commaFilters_explicit,
        filter.commaFilters_explicit]
  | .pair left right => by
      simp [Path.explicit, Path.commaFilters, left.commaFilters_explicit,
        right.commaFilters_explicit]

theorem Filter.commaFilters_explicit : (filter : Filter) →
    filter.explicit.commaFilters = filter.commaFilters
  | .path path => by
      rw [Filter.explicit, Path.commaFilters_asFilter, Path.isComma_parenthesizedIf,
        Path.isComma_explicit, Path.commaFilters_parenthesizedIf, path.commaFilters_explicit,
        Filter.commaFilters]
  | .valueEq left right => by
      simp [Filter.explicit, Filter.commaFilters, left.commaFilters_explicit,
        right.commaFilters_explicit]
  | .identityEq left right => by
      simp [Filter.explicit, Filter.commaFilters, left.commaFilters_explicit,
        right.commaFilters_explicit]
  | .constantEq path _ => by
      simp [Filter.explicit, Filter.commaFilters, path.commaFilters_explicit]
  | .parenthesized inner => by
      rw [Filter.explicit, Filter.commaFilters, Filter.commaFilters, inner.commaFilters_explicit]
  | .and left right => by
      simp [Filter.explicit, Filter.commaFilters, left.commaFilters_explicit,
        right.commaFilters_explicit]
  | .or left right => by
      simp [Filter.explicit, Filter.commaFilters, left.commaFilters_explicit,
        right.commaFilters_explicit]
  | .not inner => by
      simp [Filter.explicit, Filter.commaFilters, inner.commaFilters_explicit]
end

/-! ## Tokens of explicit trees -/

theorem Path.length_tokens_operand (path : Path) (demanded : Nat) (within : demanded ≤ 3)
    (same : path.explicit.tokens.length = path.tokens.length + 2 * path.commaFilters) :
    let operand := path.explicit.parenthesizedIf (path.tightness < demanded)
    (enclosedIf (operand.tightness < demanded) operand.tokens).length =
      (enclosedIf (path.tightness < demanded) path.tokens).length + 2 * path.commaFilters := by
  intro operand
  have printed : enclosedIf (operand.tightness < demanded) operand.tokens =
      enclosedIf (path.tightness < demanded) path.explicit.tokens :=
    enclose_operand Path.parenthesized (·.tightness < demanded) path.explicit (fun _ => rfl)
      (by rw [Path.tokens]) (decide_eq_false (Nat.not_lt.2 within)) (by simp)
  rw [printed, length_enclosedIf, length_enclosedIf, same]
  omega

theorem Filter.length_tokens_operand (filter : Filter) (demanded : Nat) (within : demanded ≤ 3)
    (same : filter.explicit.tokens.length = filter.tokens.length + 2 * filter.commaFilters) :
    let operand := filter.explicit.parenthesizedIf (filter.tightness < demanded)
    (enclosedIf (operand.tightness < demanded) operand.tokens).length =
      (enclosedIf (filter.tightness < demanded) filter.tokens).length +
        2 * filter.commaFilters := by
  intro operand
  have printed : enclosedIf (operand.tightness < demanded) operand.tokens =
      enclosedIf (filter.tightness < demanded) filter.explicit.tokens :=
    enclose_operand Filter.parenthesized (·.tightness < demanded) filter.explicit (fun _ => rfl)
      (by rw [Filter.tokens]) (decide_eq_false (Nat.not_lt.2 within)) (by simp)
  rw [printed, length_enclosedIf, length_enclosedIf, same]
  omega

theorem Path.length_tokens_parenthesizedIf (needed : Bool) (path : Path) :
    (path.parenthesizedIf needed).tokens.length = path.tokens.length + 2 * needed.toNat := by
  rw [← length_enclosedIf]
  cases needed with
  | false => rfl
  | true => exact congrArg List.length path.tokens_parenthesized

theorem Path.length_tokens_asFilter : (path : Path) →
    path.asFilter.tokens.length = path.tokens.length + 2 * path.isComma.toNat
  | .parenthesized inner => by
      have same := inner.length_tokens_asFilter
      rw [asFilter, Filter.tokens_parenthesized, tokens_parenthesized, isComma]
      simp only [List.length_cons, List.length_append, same]
      omega
  | .step _ _ _ | .filtered _ _ | .pair _ _ | .tag _ | .wildcard | .current | .parent | .text
  | .attribute _ => by
      simp [asFilter, Filter.tokens, length_enclosedIf, isComma, tightness]

mutual
/-- Every comma filter costs a pair of parentheses when what was printed is printed again. -/
theorem Path.length_tokens_explicit : (path : Path) →
    path.explicit.tokens.length = path.tokens.length + 2 * path.commaFilters
  | .tag _ | .wildcard | .current | .parent | .text | .attribute _ => by
      simp [Path.explicit, Path.commaFilters]
  | .parenthesized inner => by
      have same := inner.length_tokens_explicit
      rw [Path.explicit, Path.tokens_parenthesized, Path.tokens_parenthesized, Path.commaFilters]
      simp only [List.length_cons, List.length_append, same]
      omega
  | .step left _ right => by
      have sameLeft := left.length_tokens_operand 1 (by decide)
        left.length_tokens_explicit
      have sameRight := right.length_tokens_operand 2 (by decide)
        right.length_tokens_explicit
      simp only [Path.explicit, Path.tokens, Path.commaFilters, List.length_append,
        List.length_cons, sameLeft, sameRight]
      omega
  | .filtered base filter => by
      have sameBase := base.length_tokens_operand 2 (by decide)
        base.length_tokens_explicit
      simp only [Path.explicit, Path.tokens, Path.commaFilters, List.length_append,
        List.length_cons, sameBase, filter.length_tokens_explicit]
      omega
  | .pair left right => by
      have sameRight := right.length_tokens_operand 1 (by decide)
        right.length_tokens_explicit
      simp only [Path.explicit, Path.tokens, Path.commaFilters, List.length_append,
        List.length_cons, left.length_tokens_explicit, sameRight]
      omega

theorem Filter.length_tokens_explicit : (filter : Filter) →
    filter.explicit.tokens.length = filter.tokens.length + 2 * filter.commaFilters
  | .path path => by
      rw [Filter.explicit, Path.length_tokens_asFilter, Path.isComma_parenthesizedIf,
        Path.isComma_explicit, Path.length_tokens_parenthesizedIf, path.length_tokens_explicit,
        Filter.tokens, length_enclosedIf, Filter.commaFilters]
      omega
  | .valueEq left right | .identityEq left right => by
      have sameLeft := left.length_tokens_operand 1 (by decide)
        left.length_tokens_explicit
      have sameRight := right.length_tokens_operand 1 (by decide)
        right.length_tokens_explicit
      simp only [Filter.explicit, Filter.tokens, Filter.commaFilters, List.length_append,
        List.length_cons, sameLeft, sameRight]
      omega
  | .constantEq path _ => by
      have same := path.length_tokens_operand 1 (by decide)
        path.length_tokens_explicit
      simp only [Filter.explicit, Filter.tokens, Filter.commaFilters, List.length_append, same]
      simp only [List.length_cons, List.length_nil]
      omega
  | .parenthesized inner => by
      have same := inner.length_tokens_explicit
      rw [Filter.explicit, Filter.tokens_parenthesized, Filter.tokens_parenthesized,
        Filter.commaFilters]
      simp only [List.length_cons, List.length_append, same]
      omega
  | .and left right => by
      have sameLeft := left.length_tokens_operand 1 (by decide)
        left.length_tokens_explicit
      have sameRight := right.length_tokens_operand 2 (by decide)
        right.length_tokens_explicit
      simp only [Filter.explicit, Filter.tokens, Filter.commaFilters, List.length_append,
        List.length_cons, sameLeft, sameRight]
      omega
  | .or left right => by
      have sameRight := right.length_tokens_operand 1 (by decide)
        right.length_tokens_explicit
      simp only [Filter.explicit, Filter.tokens, Filter.commaFilters, List.length_append,
        List.length_cons, left.length_tokens_explicit, sameRight]
      omega
  | .not inner => by
      have same := inner.length_tokens_operand 2 (by decide)
        inner.length_tokens_explicit
      simp only [Filter.explicit, Filter.tokens, Filter.commaFilters, List.length_cons, same]
      omega
end

/-! ## Prints of explicit trees -/

theorem Path.print_operand (path : Path) {demanded : Nat} (within : demanded ≤ 3)
    (same : path.explicit.print = path.print) :
    let operand := path.explicit.parenthesizedIf (path.tightness < demanded)
    TreeQuery.parenthesizedIf (operand.tightness < demanded) operand.print =
      TreeQuery.parenthesizedIf (path.tightness < demanded) path.print := by
  rw [← same]
  exact enclose_operand Path.parenthesized (·.tightness < demanded) path.explicit (fun _ => rfl)
    (by rw [Path.print]; rfl) (decide_eq_false (Nat.not_lt.2 within)) (by simp)

theorem Filter.print_operand (filter : Filter) {demanded : Nat} (within : demanded ≤ 3)
    (same : filter.explicit.print = filter.print) :
    let operand := filter.explicit.parenthesizedIf (filter.tightness < demanded)
    TreeQuery.parenthesizedIf (operand.tightness < demanded) operand.print =
      TreeQuery.parenthesizedIf (filter.tightness < demanded) filter.print := by
  rw [← same]
  exact enclose_operand Filter.parenthesized (·.tightness < demanded) filter.explicit
    (fun _ => rfl)
    (by rw [Filter.print]; rfl) (decide_eq_false (Nat.not_lt.2 within)) (by simp)

theorem Path.print_asFilter : (path : Path) → path.isComma = false →
    path.asFilter.print = path.print
  | .parenthesized inner, single => by
      rw [isComma] at single
      rw [asFilter, Filter.print, inner.print_asFilter single, print]
  | .step _ _ _, _ | .filtered _ _, _ | .tag _, _ | .wildcard, _ | .current, _ | .parent, _
  | .text, _ | .attribute _, _ => by
      simp [asFilter, Filter.print, tightness, TreeQuery.parenthesizedIf]

mutual
/-- Without comma filters, what was printed is printed again as it was. -/
theorem Path.print_explicit : (path : Path) → path.commaFilters = 0 →
    path.explicit.print = path.print
  | .tag _, _ | .wildcard, _ | .current, _ | .parent, _ | .text, _ | .attribute _, _ => by
      rw [Path.explicit]
  | .parenthesized inner, single => by
      rw [Path.commaFilters] at single
      rw [Path.explicit, Path.print, Path.print, inner.print_explicit single]
  | .step left _ right, single => by
      rw [Path.commaFilters, Nat.add_eq_zero_iff] at single
      rw [Path.explicit, Path.print, Path.print,
        left.print_operand (by decide) (left.print_explicit single.1),
        right.print_operand (by decide) (right.print_explicit single.2)]
  | .filtered base filter, single => by
      rw [Path.commaFilters, Nat.add_eq_zero_iff] at single
      rw [Path.explicit, Path.print, Path.print,
        base.print_operand (by decide) (base.print_explicit single.1),
        filter.print_explicit single.2]
  | .pair left right, single => by
      rw [Path.commaFilters, Nat.add_eq_zero_iff] at single
      rw [Path.explicit, Path.print, Path.print, left.print_explicit single.1,
        right.print_operand (by decide) (right.print_explicit single.2)]

theorem Filter.print_explicit : (filter : Filter) → filter.commaFilters = 0 →
    filter.explicit.print = filter.print
  | .path path, single => by
      rw [Filter.commaFilters, Nat.add_eq_zero_iff, Bool.toNat_eq_zero] at single
      have loose : ¬path.tightness < 1 := by
        intro loose
        cases path <;> simp_all [Path.isComma, Path.tightness]
      rw [Filter.explicit, Path.print_asFilter, Filter.print, decide_eq_false loose]
      · exact path.print_explicit single.2
      · rw [Path.isComma_parenthesizedIf, Path.isComma_explicit, single.1]
  | .valueEq left right, single => by
      rw [Filter.commaFilters, Nat.add_eq_zero_iff] at single
      rw [Filter.explicit, Filter.print, Filter.print,
        left.print_operand (by decide) (left.print_explicit single.1),
        right.print_operand (by decide) (right.print_explicit single.2)]
  | .identityEq left right, single => by
      rw [Filter.commaFilters, Nat.add_eq_zero_iff] at single
      rw [Filter.explicit, Filter.print, Filter.print,
        left.print_operand (by decide) (left.print_explicit single.1),
        right.print_operand (by decide) (right.print_explicit single.2)]
  | .constantEq path _, single => by
      rw [Filter.commaFilters] at single
      rw [Filter.explicit, Filter.print, Filter.print,
        path.print_operand (by decide) (path.print_explicit single)]
  | .parenthesized inner, single => by
      rw [Filter.commaFilters] at single
      rw [Filter.explicit, Filter.print, Filter.print, inner.print_explicit single]
  | .and left right, single => by
      rw [Filter.commaFilters, Nat.add_eq_zero_iff] at single
      rw [Filter.explicit, Filter.print, Filter.print,
        left.print_operand (by decide) (left.print_explicit single.1),
        right.print_operand (by decide) (right.print_explicit single.2)]
  | .or left right, single => by
      rw [Filter.commaFilters, Nat.add_eq_zero_iff] at single
      rw [Filter.explicit, Filter.print, Filter.print, left.print_explicit single.1,
        right.print_operand (by decide) (right.print_explicit single.2)]
  | .not inner, single => by
      rw [Filter.commaFilters] at single
      rw [Filter.explicit, Filter.print, Filter.print,
        inner.print_operand (by decide) (inner.print_explicit single)]
end

end TreeQuery
