import TreeQuery.Proofs.Query.CommaFilters
import TreeQuery.Proofs.Query.Lines
import TreeQuery.Proofs.Query.RoundTrip

/-!
# Formatting what has been formatted

Formatting a text is reading it and printing the query that was read.  Formatting the outcome
again changes it if and only if the query has a comma filter, in both printed forms of queries
and for document paths, and then it changes it every time.
-/

set_option autoImplicit false

namespace TreeQuery

open Grammar

/-! ## Forms on one line -/

theorem Query.Demand.inline {needs : Query → Bool} (demand : Demand needs) {query : Query}
    (same : query.explicit.inline = query.inline) :
    let operand := query.explicit.parenthesizedIf (needs query)
    TreeQuery.parenthesizedIf (needs operand) operand.inline =
      TreeQuery.parenthesizedIf (needs query) query.inline := by
  rw [← same]
  exact enclose_operand Query.parenthesized needs query.explicit (fun _ => rfl)
    (by rw [Query.inline]; rfl) (demand.closed _) (demand.kept query)

theorem Condition.Demand.inline {needs : Condition → Bool} (demand : Demand needs)
    {condition : Condition} (same : condition.explicit.inline = condition.inline) :
    let operand := condition.explicit.parenthesizedIf (needs condition)
    TreeQuery.parenthesizedIf (needs operand) operand.inline =
      TreeQuery.parenthesizedIf (needs condition) condition.inline := by
  rw [← same]
  exact enclose_operand Condition.parenthesized needs condition.explicit (fun _ => rfl)
    (by rw [Condition.inline]; rfl) (demand.closed _) (demand.kept condition)

theorem Path.printOperand_explicit {path : Path} (single : path.commaFilters = 0) :
    (path.operand 1).explicit.printOperand = path.printOperand := by
  rw [explicit_operand]
  exact path.print_operand (by decide) (path.print_explicit single)

theorem DocumentPath.print_explicit {path : DocumentPath} (single : path.commaFilters = 0) :
    path.explicit.print = path.print := by
  rw [print, explicit, Path.printOperand_explicit single, print]

mutual
theorem Query.inline_explicit : (query : Query) → query.commaFilters = 0 →
    query.explicit.inline = query.inline
  | .reference _, _ | .constant _, _ => by rw [Query.explicit]
  | .document path, single => by
      rw [Query.commaFilters] at single
      rw [Query.explicit, Query.inline, Query.inline, DocumentPath.print_explicit single]
  | .parenthesized inner, single => by
      rw [Query.commaFilters] at single
      rw [Query.explicit, Query.inline, Query.inline, inner.inline_explicit single]
  | .pair left right, single => by
      rw [Query.commaFilters, Nat.add_eq_zero_iff] at single
      have sameLeft := Query.demand_openEnded.inline (left.inline_explicit single.1)
      have sameRight := (Query.demand_tightness 1 (by decide)).inline
        (right.inline_explicit single.2)
      rw [Query.explicit, Query.inline, Query.inline, sameLeft, sameRight]
  | .step base _ path, single => by
      rw [Query.commaFilters, Nat.add_eq_zero_iff] at single
      have sameBase := (Query.demand_tightness 2 (by decide)).inline
        (base.inline_explicit single.1)
      rw [Query.explicit, Query.inline, Query.inline, sameBase,
        Path.printOperand_explicit single.2]
  | .element _ body, single => by
      rw [Query.commaFilters] at single
      rw [Query.explicit, Query.inline, Query.inline, body.inline_explicit single]
  | .join left right _ _, single => by
      rw [Query.commaFilters, Nat.add_eq_zero_iff] at single
      have sameLeft := Query.demand_needsParentheses.inline (left.inline_explicit single.1)
      have sameRight := Query.demand_needsParentheses.inline (right.inline_explicit single.2)
      rw [Query.explicit, Query.inline, Query.inline, sameLeft, sameRight]
  | .letIn bindings body, single => by
      rw [Query.commaFilters, Nat.add_eq_zero_iff] at single
      rw [Query.explicit, Query.inline, Query.inline,
        Binding.inlineAll_explicitAll " := " bindings single.1, body.inline_explicit single.2]
  | .flwr bindings lets condition result, single => by
      simp only [Query.commaFilters, Nat.add_eq_zero_iff] at single
      rw [Query.explicit, Query.inline, Query.inline, Binding.isEmpty_explicitAll,
        Binding.inlineAll_explicitAll " in " bindings single.1,
        Binding.inlineAll_explicitAll " := " lets single.2.1,
        Condition.inlineWhere_explicit condition single.2.2.1,
        result.inline_explicit single.2.2.2]

theorem Condition.inline_explicit : (condition : Condition) → condition.commaFilters = 0 →
    condition.explicit.inline = condition.inline
  | .valueEq left right, single => by
      rw [Condition.commaFilters, Nat.add_eq_zero_iff] at single
      have sameLeft := Query.demand_needsParentheses.inline (left.inline_explicit single.1)
      have sameRight := Query.demand_needsParentheses.inline (right.inline_explicit single.2)
      rw [Condition.explicit, Condition.inline, Condition.inline, sameLeft, sameRight]
  | .identityEq left right, single => by
      rw [Condition.commaFilters, Nat.add_eq_zero_iff] at single
      have sameLeft := Query.demand_needsParentheses.inline (left.inline_explicit single.1)
      have sameRight := Query.demand_needsParentheses.inline (right.inline_explicit single.2)
      rw [Condition.explicit, Condition.inline, Condition.inline, sameLeft, sameRight]
  | .empty query, single => by
      rw [Condition.commaFilters] at single
      rw [Condition.explicit, Condition.inline, Condition.inline, query.inline_explicit single]
  | .someSatisfies bindings body, single => by
      rw [Condition.commaFilters, Nat.add_eq_zero_iff] at single
      rw [Condition.explicit, Condition.inline, Condition.inline,
        Binding.inlineAll_explicitAll " in " bindings single.1, body.inline_explicit single.2]
  | .parenthesized inner, single => by
      rw [Condition.commaFilters] at single
      rw [Condition.explicit, Condition.inline, Condition.inline, inner.inline_explicit single]
  | .and left right, single => by
      rw [Condition.commaFilters, Nat.add_eq_zero_iff] at single
      have sameLeft := (Condition.demand_either Condition.demand_openEnded
        (Condition.demand_tightness 1 (by decide))).inline (left.inline_explicit single.1)
      have sameRight := (Condition.demand_tightness 2 (by decide)).inline
        (right.inline_explicit single.2)
      rw [Condition.explicit, Condition.inline, Condition.inline, sameLeft, sameRight]
  | .or left right, single => by
      rw [Condition.commaFilters, Nat.add_eq_zero_iff] at single
      have sameLeft := Condition.demand_openEnded.inline (left.inline_explicit single.1)
      have sameRight := (Condition.demand_tightness 1 (by decide)).inline
        (right.inline_explicit single.2)
      rw [Condition.explicit, Condition.inline, Condition.inline, sameLeft, sameRight]
  | .not inner, single => by
      rw [Condition.commaFilters] at single
      have same := (Condition.demand_tightness 2 (by decide)).inline
        (inner.inline_explicit single)
      rw [Condition.explicit, Condition.inline, Condition.inline, same]

theorem Condition.inlineWhere_explicit : (condition : Option Condition) →
    Condition.commaFiltersIfPresent condition = 0 →
      Condition.inlineWhere (Condition.explicitIfPresent condition) =
        Condition.inlineWhere condition
  | none, _ => rfl
  | some condition, single => by
      rw [Condition.commaFiltersIfPresent] at single
      rw [Condition.explicitIfPresent, Condition.inlineWhere, Condition.inlineWhere,
        condition.inline_explicit single]

theorem Binding.inlineAll_explicitAll (operator : String) : (bindings : List Binding) →
    Binding.commaFilters bindings = 0 →
      Binding.inlineAll operator (Binding.explicitAll bindings) =
        Binding.inlineAll operator bindings
  | [], _ => rfl
  | ⟨_, source⟩ :: rest, single => by
      rw [Binding.commaFilters, Nat.add_eq_zero_iff] at single
      have same := Query.demand_needsParentheses.inline (source.inline_explicit single.1)
      rw [Binding.explicitAll, Binding.inlineAll, Binding.inlineAll, same,
        Binding.inlineAll_explicitAll operator rest single.2]
end

/-! ## Forms on several lines -/

theorem Query.pretty_of_short {query : Query}
    (short : query.inline.utf8ByteSize ≤ inlineLimit) : query.pretty = query.inline := by
  cases query <;> rw [pretty, if_pos short]

/-- An explicit pair of parentheses is laid out as one that is added. -/
theorem Query.pretty_parenthesized {query : Query} (line : OneLine query.inline) :
    (parenthesized query).pretty = parenthesizedBlockIf true query.pretty := by
  by_cases short : (parenthesized query).inline.utf8ByteSize ≤ inlineLimit
  · have inner : query.inline.utf8ByteSize ≤ inlineLimit := by
      rw [inline, String.utf8ByteSize_append, String.utf8ByteSize_append] at short
      omega
    have unbroken : query.inline.contains '\n' = false := by
      rw [String.contains_char_eq]
      exact decide_eq_false line
    rw [pretty_of_short short, pretty_of_short inner, parenthesizedBlockIf, unbroken, inline]
    rfl
  · rw [pretty, if_neg short]

theorem Query.Demand.pretty {needs : Query → Bool} (demand : Demand needs) {query : Query}
    (line : OneLine query.inline) (inline : query.explicit.inline = query.inline)
    (same : query.explicit.pretty = query.pretty) :
    let operand := query.explicit.parenthesizedIf (needs query)
    parenthesizedBlockIf (needs operand) operand.pretty =
      parenthesizedBlockIf (needs query) query.pretty := by
  rw [← inline] at line
  rw [← same]
  exact enclose_operand Query.parenthesized needs query.explicit (fun _ => rfl)
    (Query.pretty_parenthesized line) (demand.closed _) (demand.kept query)

section

variable {binder : String → Bool} {base : Query → Bool}

mutual
/-- Without comma filters, what was printed is printed again as it was. -/
theorem Query.pretty_explicit : (query : Query) → query.isPrintableWith binder base = true →
    query.commaFilters = 0 → query.explicit.pretty = query.pretty
  | .reference _, _, _ | .constant _, _, _ => by rw [Query.explicit]
  | .document path, _, single => by
      have line := (Query.document path).inline_explicit single
      rw [Query.commaFilters] at single
      rw [Query.explicit] at line ⊢
      rw [Query.pretty, Query.pretty, line, DocumentPath.print_explicit single]
  | .parenthesized inner, printable, single => by
      have line := (Query.parenthesized inner).inline_explicit single
      rw [Query.isPrintableWith] at printable
      rw [Query.commaFilters] at single
      rw [Query.explicit] at line ⊢
      rw [Query.pretty, Query.pretty, line, inner.pretty_explicit printable single]
  | .pair left right, printable, single => by
      have line := (Query.pair left right).inline_explicit single
      rw [Query.isPrintableWith, Bool.and_eq_true] at printable
      rw [Query.commaFilters, Nat.add_eq_zero_iff] at single
      have sameLeft := Query.demand_openEnded.pretty (left.oneLine_inline printable.1)
        (left.inline_explicit single.1) (left.pretty_explicit printable.1 single.1)
      have sameRight := (Query.demand_tightness 1 (by decide)).pretty
        (right.oneLine_inline printable.2) (right.inline_explicit single.2)
        (right.pretty_explicit printable.2 single.2)
      rw [Query.explicit] at line ⊢
      rw [Query.pretty, Query.pretty, line, sameLeft, sameRight]
  | .step query axis path, printable, single => by
      have line := (Query.step query axis path).inline_explicit single
      simp only [Query.isPrintableWith, Bool.and_eq_true] at printable
      rw [Query.commaFilters, Nat.add_eq_zero_iff] at single
      have sameBase := (Query.demand_tightness 2 (by decide)).pretty
        (query.oneLine_inline printable.1.2) (query.inline_explicit single.1)
        (query.pretty_explicit printable.1.2 single.1)
      rw [Query.explicit] at line ⊢
      rw [Query.pretty, Query.pretty, line, sameBase, Path.printOperand_explicit single.2]
  | .element name body, printable, single => by
      have line := (Query.element name body).inline_explicit single
      rw [Query.isPrintableWith, Bool.and_eq_true] at printable
      rw [Query.commaFilters] at single
      rw [Query.explicit] at line ⊢
      rw [Query.pretty, Query.pretty, line, body.pretty_explicit printable.2 single]
  | .join left right leftTags rightTags, printable, single => by
      have line := (Query.join left right leftTags rightTags).inline_explicit single
      simp only [Query.isPrintableWith, Bool.and_eq_true] at printable
      rw [Query.commaFilters, Nat.add_eq_zero_iff] at single
      have sameLeft := Query.demand_needsParentheses.pretty
        (left.oneLine_inline printable.1.1.1) (left.inline_explicit single.1)
        (left.pretty_explicit printable.1.1.1 single.1)
      have sameRight := Query.demand_needsParentheses.pretty
        (right.oneLine_inline printable.1.1.2) (right.inline_explicit single.2)
        (right.pretty_explicit printable.1.1.2 single.2)
      rw [Query.explicit] at line ⊢
      rw [Query.pretty, Query.pretty, line, sameLeft, sameRight]
  | .letIn bindings body, printable, single => by
      have line := (Query.letIn bindings body).inline_explicit single
      simp only [Query.isPrintableWith, Bool.and_eq_true] at printable
      rw [Query.commaFilters, Nat.add_eq_zero_iff] at single
      rw [Query.explicit] at line ⊢
      rw [Query.pretty, Query.pretty, line,
        Binding.prettyAll_explicitAll " := " bindings printable.1.2 single.1,
        body.pretty_explicit printable.2 single.2]
  | .flwr bindings lets condition result, printable, single => by
      have line := (Query.flwr bindings lets condition result).inline_explicit single
      simp only [Query.isPrintableWith, Bool.and_eq_true] at printable
      obtain ⟨⟨⟨⟨_, printableBindings⟩, printableLets⟩, _⟩, printableResult⟩ := printable
      simp only [Query.commaFilters, Nat.add_eq_zero_iff] at single
      rw [Query.explicit] at line ⊢
      rw [Query.pretty, Query.pretty, line, Binding.isEmpty_explicitAll,
        Binding.prettyAll_explicitAll " in " bindings printableBindings single.1,
        Binding.prettyAll_explicitAll " := " lets printableLets single.2.1,
        Condition.inlineWhere_explicit condition single.2.2.1,
        result.pretty_explicit printableResult single.2.2.2]

theorem Binding.prettyAll_explicitAll (operator : String) : (bindings : List Binding) →
    Binding.arePrintableWith binder base bindings = true → Binding.commaFilters bindings = 0 →
      Binding.prettyAll operator (Binding.explicitAll bindings) =
        Binding.prettyAll operator bindings
  | [], _, _ => rfl
  | ⟨_, source⟩ :: rest, printable, single => by
      simp only [Binding.arePrintableWith, Bool.and_eq_true] at printable
      rw [Binding.commaFilters, Nat.add_eq_zero_iff] at single
      have same := Query.demand_needsParentheses.pretty (source.oneLine_inline printable.1.2)
        (source.inline_explicit single.1) (source.pretty_explicit printable.1.2 single.1)
      rw [Binding.explicitAll, Binding.prettyAll, Binding.prettyAll, same,
        Binding.prettyAll_explicitAll operator rest printable.2 single.2]
end

end

/-! ## Formatting again -/

/-- Explicit parentheses that are explicit already leave no room for comma filters. -/
theorem Query.commaFilters_eq_zero {query : Query}
    (same : query.explicit = query.explicit.explicit) :
    query.commaFilters = 0 := by
  have length := query.explicit.length_tokens_explicit
  rw [← same, query.commaFilters_explicit] at length
  omega

theorem DocumentPath.commaFilters_eq_zero {path : DocumentPath}
    (same : path.explicit = path.explicit.explicit) : path.commaFilters = 0 := by
  have length := path.explicit.length_tokens_explicit
  rw [← same, path.commaFilters_explicit] at length
  omega

/-- Reading what was printed leaves the number of comma filters as it is, so a query that the
next print changes is changed by every print. -/
theorem formatting_stable_iff (text : String) :
    (∀ query : Query, Query.parse text = .ok query → ∃ again,
      Query.parse query.pretty = .ok again ∧ Query.parse query.inline = .ok again ∧
        (again.pretty = query.pretty ↔ query.commaFilters = 0) ∧
        (again.inline = query.inline ↔ query.commaFilters = 0) ∧
        again.commaFilters = query.commaFilters) ∧
    (∀ path : DocumentPath, DocumentPath.parse text = .ok path → ∃ again,
      DocumentPath.parse path.print = .ok again ∧
        (again.print = path.print ↔ path.commaFilters = 0) ∧
        again.commaFilters = path.commaFilters) := by
  refine ⟨fun query parsed => ?_, fun path parsed => ?_⟩
  · have printable := Query.isPrintable_of_parse parsed
    have readPretty := Query.parse_pretty printable
    have readInline := Query.parse_inline printable
    have again := Query.isPrintable_of_parse readPretty
    refine ⟨query.explicit, readPretty, readInline, ⟨fun same => ?_, fun single => ?_⟩,
      ⟨fun same => ?_, query.inline_explicit⟩, query.commaFilters_explicit⟩
    · have reread := Query.parse_pretty again
      rw [same, readPretty] at reread
      exact Query.commaFilters_eq_zero (Except.ok.inj reread)
    · exact query.pretty_explicit printable single
    · have reread := Query.parse_inline again
      rw [same, readInline] at reread
      exact Query.commaFilters_eq_zero (Except.ok.inj reread)
  · have printable := DocumentPath.isPrintable_of_parse parsed
    have read := DocumentPath.parse_print printable
    refine ⟨path.explicit, read, ⟨fun same => ?_, DocumentPath.print_explicit⟩,
      path.commaFilters_explicit⟩
    have reread := DocumentPath.parse_print (DocumentPath.isPrintable_of_parse read)
    rw [same, read] at reread
    exact DocumentPath.commaFilters_eq_zero (Except.ok.inj reread)

theorem formatting_stable_iff_attributeFilter :
    let query : Query := .document ⟨"f", .child, .filtered (.tag "a") (.path (.attribute "b"))⟩
    let path : DocumentPath := ⟨"f", .child, .tag "a"⟩
    (Query.parse "doc(\"f\")/a[@b]" = .ok query ∧ ∃ again,
      Query.parse query.pretty = .ok again ∧ Query.parse query.inline = .ok again ∧
        (again.pretty = query.pretty ↔ query.commaFilters = 0) ∧
        (again.inline = query.inline ↔ query.commaFilters = 0) ∧
        again.commaFilters = query.commaFilters) ∧
    DocumentPath.parse "doc(\"f\")/a" = .ok path ∧ ∃ again,
      DocumentPath.parse path.print = .ok again ∧
        (again.print = path.print ↔ path.commaFilters = 0) ∧
        again.commaFilters = path.commaFilters := by
  intro query path
  have parsedQuery : Query.parse "doc(\"f\")/a[@b]" = .ok query := by decide +kernel
  have parsedPath : DocumentPath.parse "doc(\"f\")/a" = .ok path := by decide +kernel
  exact ⟨⟨parsedQuery, (formatting_stable_iff _).1 query parsedQuery⟩, parsedPath,
    (formatting_stable_iff _).2 path parsedPath⟩

/-- A comma filter gains parentheses each time, in every printed form. -/
theorem formatting_commaFilter :
    let source := "doc(\"f\")/a[b, c]"
    let once := "doc(\"f\")/a[(b, c)]"
    let twice := "doc(\"f\")/a[((b, c))]"
    ((Query.parse source).map Query.pretty = .ok once ∧
      (Query.parse once).map Query.pretty = .ok twice) ∧
    ((Query.parse source).map Query.inline = .ok once ∧
      (Query.parse once).map Query.inline = .ok twice) ∧
    ((DocumentPath.parse source).map DocumentPath.print = .ok once ∧
      (DocumentPath.parse once).map DocumentPath.print = .ok twice) ∧ once ≠ twice := by
  decide +kernel

end TreeQuery
