import TreeQuery.Proofs.Query.Tokens

/-!
# Prints on one line

A printable path, and the form on one line of a printable query, contain no line feed: names and
strings have none, and printing adds none.
-/

set_option autoImplicit false

namespace TreeQuery

open Grammar

/-- A text without line feeds. -/
def OneLine (text : String) : Prop := '\n' ∉ text.toList

instance (text : String) : Decidable (OneLine text) := inferInstanceAs (Decidable (¬_))

theorem oneLine_append {left right : String} :
    OneLine (left ++ right) ↔ OneLine left ∧ OneLine right := by
  rw [OneLine, String.toList_append, List.mem_append, not_or]
  rfl

theorem OneLine.intercalate {separator : String} (line : OneLine separator) :
    {texts : List String} → (∀ text ∈ texts, OneLine text) →
      OneLine (separator.intercalate texts)
  | [], _ => by
      rw [String.intercalate_nil]
      exact List.not_mem_nil
  | [text], lines => by
      rw [String.intercalate_singleton]
      exact lines text List.mem_cons_self
  | text :: next :: rest, lines => by
      rw [String.intercalate_cons_cons, oneLine_append, oneLine_append]
      exact ⟨⟨lines text List.mem_cons_self, line⟩,
        intercalate line fun text member => lines text (List.mem_cons_of_mem _ member)⟩

theorem OneLine.parenthesizedIf {text : String} (line : OneLine text) (needed : Bool) :
    OneLine (parenthesizedIf needed text) := by
  cases needed with
  | false => exact line
  | true => exact oneLine_append.2 ⟨oneLine_append.2 ⟨by decide, line⟩, by decide⟩

theorem oneLine_of_isName {name : String} (named : isName name = true) : OneLine name := by
  intro broken
  rw [isName] at named
  split at named
  · next empty => rw [empty] at broken; exact List.not_mem_nil broken
  · next first rest letters =>
      rw [letters, List.mem_cons] at broken
      rw [Bool.and_eq_true, List.all_eq_true] at named
      rcases broken with same | within
      · subst same
        exact absurd named.1 (by decide)
      · exact absurd (named.2 _ within) (by decide)

theorem oneLine_of_isQuotable {value : String} (quotable : isQuotable value = true) :
    OneLine value := by
  intro broken
  rw [isQuotable, List.all_eq_true] at quotable
  exact absurd (quotable _ broken) (by decide)

theorem oneLine_in : OneLine " in " := by decide

theorem oneLine_assign : OneLine " := " := by decide

theorem oneLine_separator (axis : Axis) : OneLine axis.separator := by
  cases axis <;> decide

/-! ## Paths -/

mutual
theorem Path.oneLine_print : (path : Path) → path.isPrintable = true → OneLine path.print
  | .tag _, printable => oneLine_of_isName (isName_of_isTagName printable)
  | .wildcard, _ | .current, _ | .parent, _ | .text, _ => by rw [Path.print]; decide
  | .attribute _, printable => by
      rw [Path.print, oneLine_append]
      exact ⟨by decide, oneLine_of_isName printable⟩
  | .parenthesized inner, printable => by
      rw [Path.isPrintable] at printable
      rw [Path.print]
      exact (inner.oneLine_print printable).parenthesizedIf true
  | .step left axis right, printable => by
      rw [Path.isPrintable, Bool.and_eq_true] at printable
      rw [Path.print, oneLine_append, oneLine_append]
      exact ⟨⟨(left.oneLine_print printable.1).parenthesizedIf _, oneLine_separator axis⟩,
        (right.oneLine_print printable.2).parenthesizedIf _⟩
  | .filtered base filter, printable => by
      rw [Path.isPrintable, Bool.and_eq_true] at printable
      rw [Path.print, oneLine_append, oneLine_append, oneLine_append]
      exact ⟨⟨⟨(base.oneLine_print printable.1).parenthesizedIf _, by decide⟩,
        filter.oneLine_print printable.2⟩, by decide⟩
  | .pair left right, printable => by
      rw [Path.isPrintable, Bool.and_eq_true] at printable
      rw [Path.print, oneLine_append, oneLine_append]
      exact ⟨⟨left.oneLine_print printable.1, by decide⟩,
        (right.oneLine_print printable.2).parenthesizedIf _⟩

theorem Filter.oneLine_print : (filter : Filter) → filter.isPrintable = true →
    OneLine filter.print
  | .path path, printable => by
      rw [Filter.isPrintable] at printable
      rw [Filter.print]
      exact (path.oneLine_print printable).parenthesizedIf _
  | .valueEq left right, printable => by
      rw [Filter.isPrintable, Bool.and_eq_true] at printable
      rw [Filter.print, oneLine_append, oneLine_append]
      exact ⟨⟨(left.oneLine_print printable.1).parenthesizedIf _, by decide⟩,
        (right.oneLine_print printable.2).parenthesizedIf _⟩
  | .identityEq left right, printable => by
      rw [Filter.isPrintable, Bool.and_eq_true] at printable
      rw [Filter.print, oneLine_append, oneLine_append]
      exact ⟨⟨(left.oneLine_print printable.1).parenthesizedIf _, by decide⟩,
        (right.oneLine_print printable.2).parenthesizedIf _⟩
  | .constantEq path _, printable => by
      rw [Filter.isPrintable, Bool.and_eq_true] at printable
      rw [Filter.print, oneLine_append, oneLine_append, oneLine_append]
      exact ⟨⟨⟨(path.oneLine_print printable.1).parenthesizedIf _, by decide⟩,
        oneLine_of_isQuotable printable.2⟩, by decide⟩
  | .parenthesized inner, printable => by
      rw [Filter.isPrintable] at printable
      rw [Filter.print]
      exact (inner.oneLine_print printable).parenthesizedIf true
  | .and left right, printable => by
      rw [Filter.isPrintable, Bool.and_eq_true] at printable
      rw [Filter.print, oneLine_append, oneLine_append]
      exact ⟨⟨(left.oneLine_print printable.1).parenthesizedIf _, by decide⟩,
        (right.oneLine_print printable.2).parenthesizedIf _⟩
  | .or left right, printable => by
      rw [Filter.isPrintable, Bool.and_eq_true] at printable
      rw [Filter.print, oneLine_append, oneLine_append]
      exact ⟨⟨left.oneLine_print printable.1, by decide⟩,
        (right.oneLine_print printable.2).parenthesizedIf _⟩
  | .not inner, printable => by
      rw [Filter.isPrintable] at printable
      rw [Filter.print, oneLine_append]
      exact ⟨by decide, (inner.oneLine_print printable).parenthesizedIf _⟩
end

theorem Path.oneLine_printOperand {path : Path} (printable : path.isPrintable = true) :
    OneLine path.printOperand :=
  (path.oneLine_print printable).parenthesizedIf _

theorem DocumentPath.oneLine_print {path : DocumentPath} (printable : path.isPrintable = true) :
    OneLine path.print := by
  rw [isPrintable, Bool.and_eq_true] at printable
  simp only [print, oneLine_append]
  exact ⟨⟨⟨⟨by decide, oneLine_of_isQuotable printable.1⟩, by decide⟩,
    oneLine_separator path.axis⟩, Path.oneLine_printOperand printable.2⟩

theorem oneLine_printTags {tags : List String} (named : tags.all isName = true) :
    OneLine (printTags tags) := by
  rw [List.all_eq_true] at named
  rw [printTags, oneLine_append, oneLine_append]
  exact ⟨⟨by decide, OneLine.intercalate (by decide) fun tag member =>
    oneLine_of_isName (named tag member)⟩, by decide⟩

/-! ## Queries and conditions -/

section

variable {binder : String → Bool} {base : Query → Bool}

mutual
/-- The form of a printable query on one line is on one line. -/
theorem Query.oneLine_inline : (query : Query) → query.isPrintableWith binder base = true →
    OneLine query.inline
  | .reference _, printable => by
      rw [Query.inline, oneLine_append]
      exact ⟨by decide, oneLine_of_isName printable⟩
  | .constant _, printable => by
      rw [Query.inline, oneLine_append, oneLine_append]
      exact ⟨⟨by decide, oneLine_of_isQuotable printable⟩, by decide⟩
  | .document path, printable => by
      rw [Query.isPrintableWith] at printable
      rw [Query.inline]
      exact DocumentPath.oneLine_print printable
  | .parenthesized inner, printable => by
      rw [Query.isPrintableWith] at printable
      rw [Query.inline]
      exact (inner.oneLine_inline printable).parenthesizedIf true
  | .pair left right, printable => by
      rw [Query.isPrintableWith, Bool.and_eq_true] at printable
      rw [Query.inline, oneLine_append, oneLine_append]
      exact ⟨⟨(left.oneLine_inline printable.1).parenthesizedIf _, by decide⟩,
        (right.oneLine_inline printable.2).parenthesizedIf _⟩
  | .step query axis path, printable => by
      simp only [Query.isPrintableWith, Bool.and_eq_true] at printable
      rw [Query.inline, oneLine_append, oneLine_append]
      exact ⟨⟨(query.oneLine_inline printable.1.2).parenthesizedIf _, oneLine_separator axis⟩,
        Path.oneLine_printOperand printable.2⟩
  | .element name body, printable => by
      rw [Query.isPrintableWith, Bool.and_eq_true] at printable
      have line := oneLine_of_isName printable.1
      simp only [Query.inline, printElement, oneLine_append]
      exact ⟨⟨⟨⟨⟨⟨by decide, line⟩, by decide⟩, body.oneLine_inline printable.2⟩, by decide⟩,
        line⟩, by decide⟩
  | .join left right leftTags rightTags, printable => by
      simp only [Query.isPrintableWith, Bool.and_eq_true] at printable
      obtain ⟨⟨⟨printableLeft, printableRight⟩, namedLeft⟩, namedRight⟩ := printable
      rw [Query.inline, oneLine_append, oneLine_append]
      refine ⟨⟨by decide, OneLine.intercalate (by decide) ?_⟩, by decide⟩
      simp only [List.forall_mem_cons, List.not_mem_nil, false_implies, implies_true, and_true]
      exact ⟨(left.oneLine_inline printableLeft).parenthesizedIf _,
        (right.oneLine_inline printableRight).parenthesizedIf _,
        oneLine_printTags namedLeft, oneLine_printTags namedRight⟩
  | .letIn bindings body, printable => by
      simp only [Query.isPrintableWith, Bool.and_eq_true] at printable
      simp only [Query.inline, oneLine_append]
      exact ⟨⟨⟨by decide, OneLine.intercalate (by decide)
        (Binding.oneLine_inlineAll (by decide) bindings printable.1.2)⟩, by decide⟩,
        body.oneLine_inline printable.2⟩
  | .flwr bindings lets condition result, printable => by
      simp only [Query.isPrintableWith, Bool.and_eq_true] at printable
      obtain ⟨⟨⟨⟨_, printableBindings⟩, printableLets⟩, printableWhere⟩, printableResult⟩ :=
        printable
      have lines := Binding.oneLine_inlineAll oneLine_in bindings printableBindings
      have letLines := Binding.oneLine_inlineAll oneLine_assign lets printableLets
      rw [Query.inline]
      refine OneLine.intercalate (by decide) ?_
      simp only [List.forall_mem_append, List.forall_mem_singleton, oneLine_append]
      refine ⟨⟨⟨⟨by decide, OneLine.intercalate (by decide) lines⟩, ?_⟩,
        Condition.oneLine_inlineWhere condition printableWhere⟩, by decide,
        result.oneLine_inline printableResult⟩
      split
      · exact fun _ member => absurd member List.not_mem_nil
      · simp only [List.forall_mem_singleton, oneLine_append]
        exact ⟨by decide, OneLine.intercalate (by decide) letLines⟩

theorem Condition.oneLine_inline : (condition : Condition) →
    condition.isPrintableWith binder base = true → OneLine condition.inline
  | .valueEq left right, printable => by
      rw [Condition.isPrintableWith, Bool.and_eq_true] at printable
      rw [Condition.inline, oneLine_append, oneLine_append]
      exact ⟨⟨(left.oneLine_inline printable.1).parenthesizedIf _, by decide⟩,
        (right.oneLine_inline printable.2).parenthesizedIf _⟩
  | .identityEq left right, printable => by
      rw [Condition.isPrintableWith, Bool.and_eq_true] at printable
      rw [Condition.inline, oneLine_append, oneLine_append]
      exact ⟨⟨(left.oneLine_inline printable.1).parenthesizedIf _, by decide⟩,
        (right.oneLine_inline printable.2).parenthesizedIf _⟩
  | .empty query, printable => by
      rw [Condition.isPrintableWith] at printable
      rw [Condition.inline, oneLine_append, oneLine_append]
      exact ⟨⟨by decide, query.oneLine_inline printable⟩, by decide⟩
  | .someSatisfies bindings body, printable => by
      simp only [Condition.isPrintableWith, Bool.and_eq_true] at printable
      simp only [Condition.inline, oneLine_append]
      exact ⟨⟨⟨by decide, OneLine.intercalate (by decide)
        (Binding.oneLine_inlineAll (by decide) bindings printable.1.2)⟩, by decide⟩,
        body.oneLine_inline printable.2⟩
  | .parenthesized inner, printable => by
      rw [Condition.isPrintableWith] at printable
      rw [Condition.inline]
      exact (inner.oneLine_inline printable).parenthesizedIf true
  | .and left right, printable => by
      rw [Condition.isPrintableWith, Bool.and_eq_true] at printable
      rw [Condition.inline, oneLine_append, oneLine_append]
      exact ⟨⟨(left.oneLine_inline printable.1).parenthesizedIf _, by decide⟩,
        (right.oneLine_inline printable.2).parenthesizedIf _⟩
  | .or left right, printable => by
      rw [Condition.isPrintableWith, Bool.and_eq_true] at printable
      rw [Condition.inline, oneLine_append, oneLine_append]
      exact ⟨⟨(left.oneLine_inline printable.1).parenthesizedIf _, by decide⟩,
        (right.oneLine_inline printable.2).parenthesizedIf _⟩
  | .not inner, printable => by
      rw [Condition.isPrintableWith] at printable
      rw [Condition.inline, oneLine_append]
      exact ⟨by decide, (inner.oneLine_inline printable).parenthesizedIf _⟩

theorem Condition.oneLine_inlineWhere : (condition : Option Condition) →
    Condition.isPrintableIfPresent binder base condition = true →
      ∀ text ∈ Condition.inlineWhere condition, OneLine text
  | none, _ => fun _ member => absurd member List.not_mem_nil
  | some condition, printable => by
      rw [Condition.isPrintableIfPresent] at printable
      rw [Condition.inlineWhere, List.forall_mem_singleton, oneLine_append]
      exact ⟨by decide, condition.oneLine_inline printable⟩

theorem Binding.oneLine_inlineAll {operator : String} (line : OneLine operator) :
    (bindings : List Binding) → Binding.arePrintableWith binder base bindings = true →
      ∀ text ∈ Binding.inlineAll operator bindings, OneLine text
  | [], _ => fun _ member => absurd member List.not_mem_nil
  | ⟨_, source⟩ :: rest, printable => by
      simp only [Binding.arePrintableWith, Bool.and_eq_true] at printable
      obtain ⟨⟨⟨named, _⟩, printableSource⟩, printableRest⟩ := printable
      rw [Binding.inlineAll, List.forall_mem_cons]
      refine ⟨?_, Binding.oneLine_inlineAll line rest printableRest⟩
      simp only [oneLine_append]
      exact ⟨⟨⟨by decide, oneLine_of_isName named⟩, line⟩,
        (source.oneLine_inline printableSource).parenthesizedIf _⟩
end

end

end TreeQuery
