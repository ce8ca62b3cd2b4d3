import TreeQuery.Proofs.Query.Correspondence
import TreeQuery.Proofs.Query.FreshNames
import TreeQuery.Proofs.Query.Tokens

/-!
# Renamed queries can be printed

New names are names that a tag can have, and the name of references that nothing binds is a
name.  So renaming leaves a query printable, and every variable that it binds could be a tag: that
is so of every query that corresponds to a printable one and binds such names
(`Query.Corresponds.isPrintable`).
-/

set_option autoImplicit false

namespace TreeQuery

open Grammar Renaming

/-! ## Names with numbers -/

theorem isName_append {name suffix : String} (named : isName name = true)
    (continues : ∀ c ∈ suffix.toList, continuesName c = true) : isName (name ++ suffix) = true := by
  obtain ⟨first, rest, spelled, starts, inside⟩ := isName_iff.mp named
  refine isName_iff.mpr ⟨first, rest ++ suffix.toList, ?_, starts, ?_⟩
  · rw [String.toList_append, spelled, List.cons_append]
  · exact fun c member => (List.mem_append.mp member).elim (inside c) (continues c)

theorem continuesName_of_mem_toString {number : Nat} :
    ∀ c ∈ (toString number).toList, continuesName c = true := by
  intro c member
  rw [Nat.toString_eq_repr, Nat.toList_repr] at member
  have digit := Nat.isDigit_of_mem_toDigits (by decide) (by decide) member
  rw [Char.isDigit, Bool.and_eq_true, decide_eq_true_eq, decide_eq_true_eq] at digit
  rw [continuesName, Bool.or_eq_true, Bool.or_eq_true, Bool.and_eq_true, decide_eq_true_eq,
    decide_eq_true_eq]
  exact .inl (.inr digit)

/-- A new name could be a tag. -/
theorem isTagName_numbered (number : Nat) : isTagName (numbered number) = true := by
  rw [isTagName, numbered, isName_append (by decide) continuesName_of_mem_toString, Bool.true_and,
    Bool.not_eq_true', List.contains_eq_mem, decide_eq_false_iff_not]
  intro listed
  have heads : ∀ word ∈ reservedWords, word.toList.head? ≠ some 'v' := by decide
  exact heads _ listed (by simp)

theorem isName_undefinedName : isName undefinedName = true := by decide

/-! ## Renaming -/

/-- Steps are allowed over all queries. -/
def anyBase : Query → Bool := fun _ => true

/-- New names that could be tags. -/
def NewNames.AreTags (names : NewNames) : Prop := ∀ entry ∈ names, isTagName entry.2 = true

variable {binder : String → Bool} {base : Query → Bool}

/-- A name that is linked with another is a name that can be printed. -/
theorem Links.isName_of_connect {links : Links} (tags : NewNames.AreTags links)
    {first second : String}
    (connect : links.Connect (fun _ other => isName other = true) first second) :
    isName second = true := by
  induction links with
  | nil => exact connect
  | cons link outer ih =>
      rcases connect with ⟨_, rfl⟩ | ⟨_, _, connect⟩
      · exact isName_of_isTagName (tags link List.mem_cons_self)
      · exact ih (fun entry member => tags entry (List.mem_cons_of_mem link member)) connect

mutual
/-- **A query that corresponds to a printable one can be printed**, if the names it binds could be
tags and its free names are names. -/
theorem Query.Corresponds.isPrintable : {first : Query} → ∀ {second : Query} {links : Links},
    first.Corresponds (fun _ other => isName other = true) links second →
      NewNames.AreTags links → (∀ name ∈ second.boundNames, isTagName name = true) →
        first.isPrintableWith binder base = true → second.isPrintableWith isTagName anyBase = true
  | .reference _, _, _, .reference connect, tags, _, _ => Links.isName_of_connect tags connect
  | .constant _, _, _, .constant _, _, _, printable => printable
  | .document _, _, _, .document _, _, _, printable => printable
  | .parenthesized _, _, _, .parenthesized inner, tags, bound, printable => by
      rw [Query.isPrintableWith] at printable ⊢
      rw [Query.boundNames] at bound
      exact inner.isPrintable tags bound printable
  | .pair _ _, _, _, .pair left right, tags, bound, printable => by
      simp only [Query.isPrintableWith, Bool.and_eq_true] at printable ⊢
      rw [Query.boundNames, List.forall_mem_append] at bound
      exact ⟨left.isPrintable tags bound.1 printable.1, right.isPrintable tags bound.2 printable.2⟩
  | .step _ _ _, _, _, .step base, tags, bound, printable => by
      simp only [Query.isPrintableWith, Bool.and_eq_true] at printable ⊢
      rw [Query.boundNames] at bound
      exact ⟨⟨rfl, base.isPrintable tags bound printable.1.2⟩, printable.2⟩
  | .element _ _, _, _, .element body, tags, bound, printable => by
      simp only [Query.isPrintableWith, Bool.and_eq_true] at printable ⊢
      rw [Query.boundNames] at bound
      exact ⟨printable.1, body.isPrintable tags bound printable.2⟩
  | .join _ _ _ _, _, _, .join left right, tags, bound, printable => by
      simp only [Query.isPrintableWith, Bool.and_eq_true] at printable ⊢
      rw [Query.boundNames, List.forall_mem_append] at bound
      exact ⟨⟨⟨left.isPrintable tags bound.1 printable.1.1.1,
        right.isPrintable tags bound.2 printable.1.1.2⟩, printable.1.2⟩, printable.2⟩
  | .letIn _ _, _, _, .letIn bindings body, tags, bound, printable => by
      simp only [Query.isPrintableWith, Bool.and_eq_true] at printable ⊢
      rw [Query.boundNames, List.forall_mem_append] at bound
      obtain ⟨same, others, inner⟩ := bindings.arePrintable tags tags bound.1 printable.1.2
      exact ⟨⟨same ▸ printable.1.1, others⟩, body.isPrintable inner bound.2 printable.2⟩
  | .flwr _ _ _ _, _, _, .flwr bindings lets condition result, tags, bound, printable => by
      simp only [Query.isPrintableWith, Bool.and_eq_true] at printable ⊢
      simp only [Query.boundNames, List.forall_mem_append] at bound
      obtain ⟨⟨⟨bindingsBound, letsBound⟩, conditionBound⟩, resultBound⟩ := bound
      obtain ⟨⟨⟨⟨some, bindingsPrintable⟩, letsPrintable⟩, conditionPrintable⟩, resultPrintable⟩ :=
        printable
      obtain ⟨same, others, inner⟩ := bindings.arePrintable tags bindingsBound bindingsPrintable
      obtain ⟨_, otherLets, innermost⟩ := lets.arePrintable inner letsBound letsPrintable
      exact ⟨⟨⟨⟨same ▸ some, others⟩, otherLets⟩,
        condition.isPrintable innermost conditionBound conditionPrintable⟩,
          result.isPrintable innermost resultBound resultPrintable⟩

theorem Condition.Corresponds.isPrintable : {first : Condition} → ∀ {second : Condition}
    {links : Links}, first.Corresponds (fun _ other => isName other = true) links second →
      NewNames.AreTags links → (∀ name ∈ second.boundNames, isTagName name = true) →
        first.isPrintableWith binder base = true → second.isPrintableWith isTagName anyBase = true
  | .valueEq _ _, _, _, .valueEq left right, tags, bound, printable
  | .identityEq _ _, _, _, .identityEq left right, tags, bound, printable
  | .and _ _, _, _, .and left right, tags, bound, printable
  | .or _ _, _, _, .or left right, tags, bound, printable => by
      simp only [Condition.isPrintableWith, Bool.and_eq_true] at printable ⊢
      rw [Condition.boundNames, List.forall_mem_append] at bound
      exact ⟨left.isPrintable tags bound.1 printable.1, right.isPrintable tags bound.2 printable.2⟩
  | .empty _, _, _, .empty query, tags, bound, printable => by
      rw [Condition.isPrintableWith] at printable ⊢
      rw [Condition.boundNames] at bound
      exact query.isPrintable tags bound printable
  | .someSatisfies _ _, _, _, .someSatisfies bindings body, tags, bound, printable => by
      simp only [Condition.isPrintableWith, Bool.and_eq_true] at printable ⊢
      rw [Condition.boundNames, List.forall_mem_append] at bound
      obtain ⟨same, others, inner⟩ := bindings.arePrintable tags bound.1 printable.1.2
      exact ⟨⟨same ▸ printable.1.1, others⟩, body.isPrintable inner bound.2 printable.2⟩
  | .parenthesized _, _, _, .parenthesized inner, tags, bound, printable
  | .not _, _, _, .not inner, tags, bound, printable => by
      rw [Condition.isPrintableWith] at printable ⊢
      rw [Condition.boundNames] at bound
      exact inner.isPrintable tags bound printable

theorem Condition.CorrespondIfPresent.isPrintable : {first : Option Condition} →
    ∀ {second : Option Condition} {links : Links},
      Condition.CorrespondIfPresent (fun _ other => isName other = true) links first second →
        NewNames.AreTags links →
          (∀ name ∈ Condition.boundNamesIfPresent second, isTagName name = true) →
            Condition.isPrintableIfPresent binder base first = true →
              Condition.isPrintableIfPresent isTagName anyBase second = true
  | none, _, _, .none, _, _, _ => rfl
  | some _, _, _, .some condition, tags, bound, printable => by
      rw [Condition.isPrintableIfPresent] at printable ⊢
      rw [Condition.boundNamesIfPresent] at bound
      exact condition.isPrintable tags bound printable

theorem Binding.CorrespondInOrder.arePrintable : {first : List Binding} →
    ∀ {second : List Binding} {links inner : Links},
      Binding.CorrespondInOrder (fun _ other => isName other = true) links first second inner →
        NewNames.AreTags links → (∀ name ∈ Binding.boundNamesAll second, isTagName name = true) →
          Binding.arePrintableWith binder base first = true →
            second.isEmpty = first.isEmpty ∧
              Binding.arePrintableWith isTagName anyBase second = true ∧ NewNames.AreTags inner
  | [], _, _, _, .nil, tags, _, _ => ⟨rfl, rfl, tags⟩
  | ⟨_, _⟩ :: _, _, _, _, .cons source rest, tags, bound, printable => by
      simp only [Binding.arePrintableWith, Bool.and_eq_true] at printable ⊢
      rw [Binding.boundNamesAll, List.forall_mem_append, List.forall_mem_cons] at bound
      obtain ⟨sourceBound, isTag, restBound⟩ := bound
      obtain ⟨_, others, inner⟩ :=
        rest.arePrintable (List.forall_mem_cons.mpr ⟨isTag, tags⟩) restBound printable.2
      exact ⟨rfl, ⟨⟨⟨isName_of_isTagName isTag, isTag⟩,
        source.isPrintable tags sourceBound printable.1.2⟩, others⟩, inner⟩

theorem Binding.CorrespondApart.arePrintable : {first : List Binding} →
    ∀ {second : List Binding} {outer links inner : Links},
      Binding.CorrespondApart (fun _ other => isName other = true) outer links first second
          inner →
        NewNames.AreTags outer → NewNames.AreTags links →
          (∀ name ∈ Binding.boundNamesAll second, isTagName name = true) →
            Binding.arePrintableWith binder base first = true →
              second.isEmpty = first.isEmpty ∧
                Binding.arePrintableWith isTagName anyBase second = true ∧ NewNames.AreTags inner
  | [], _, _, _, _, .nil, _, tags, _, _ => ⟨rfl, rfl, tags⟩
  | ⟨_, _⟩ :: _, _, _, _, _, .cons source rest, outerTags, tags, bound, printable => by
      simp only [Binding.arePrintableWith, Bool.and_eq_true] at printable ⊢
      rw [Binding.boundNamesAll, List.forall_mem_append, List.forall_mem_cons] at bound
      obtain ⟨sourceBound, isTag, restBound⟩ := bound
      obtain ⟨_, others, inner⟩ :=
        rest.arePrintable outerTags (List.forall_mem_cons.mpr ⟨isTag, tags⟩) restBound printable.2
      exact ⟨rfl, ⟨⟨⟨isName_of_isTagName isTag, isTag⟩,
        source.isPrintable outerTags sourceBound printable.1.2⟩, others⟩, inner⟩
end

/-! ## Whole queries -/

/-- **Renaming leaves a query printable**, and the variables of the renamed query could be tags. -/
theorem Query.isPrintable_of_renaming {strict : Bool} {query renamed : Query} {counter later : Nat}
    (printable : query.isPrintableWith binder base = true)
    (run : query.renaming strict counter = .ok renamed later) :
    renamed.isPrintableWith isTagName anyBase = true := by
  have corresponds : query.Corresponds (fun _ other => isName other = true) [] renamed :=
    Query.corresponds_of_renaming (fun _ _ => isName_undefinedName) run
  have bound : ∀ name ∈ renamed.boundNames, isTagName name = true := by
    rw [(Turn.boundNames_of run).1, List.forall_mem_map]
    exact fun number _ => isTagName_numbered number
  exact corresponds.isPrintable (List.forall_mem_nil _) bound printable

end TreeQuery
