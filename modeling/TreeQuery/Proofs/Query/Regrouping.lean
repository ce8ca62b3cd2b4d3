import TreeQuery.Proofs.Path.Regrouping
import TreeQuery.Proofs.Query.Tokens
import TreeQuery.Query.Evaluation

/-!
# Steps over steps

Join planning makes steps over queries that end in paths, which reading never does: what is read
behind a path is more of that path.  The regrouped query is the one in which all such steps have
become parts of the paths in front of them.  It is printed with the same tokens, can be read back
as it is, and has the same value in every scope.
-/

set_option autoImplicit false

namespace TreeQuery

open Grammar Evaluation

/-- A step over a query, as a part of the path that the query ends in if it ends in one. -/
def Query.continued (axis : Axis) (path : Path) : Query → Query
  | .document base => .document ⟨base.document, base.axis, base.path.graft axis path⟩
  | .step base outer inner => .step base outer (inner.graft axis path)
  | base => .step base axis path

mutual
/-- A query in which no step continues a path. -/
def Query.regrouped : Query → Query
  | .reference name => .reference name
  | .constant value => .constant value
  | .document path => .document path
  | .parenthesized inner => .parenthesized inner.regrouped
  | .pair left right => .pair left.regrouped right.regrouped
  | .step base axis path => base.regrouped.continued axis path
  | .element name body => .element name body.regrouped
  | .join left right leftTags rightTags => .join left.regrouped right.regrouped leftTags rightTags
  | .letIn bindings body => .letIn (Binding.regroupedAll bindings) body.regrouped
  | .flwr bindings lets condition result =>
      .flwr (Binding.regroupedAll bindings) (Binding.regroupedAll lets)
        (Condition.regroupedIfPresent condition) result.regrouped

/-- A condition in which no step continues a path. -/
def Condition.regrouped : Condition → Condition
  | .valueEq left right => .valueEq left.regrouped right.regrouped
  | .identityEq left right => .identityEq left.regrouped right.regrouped
  | .empty query => .empty query.regrouped
  | .someSatisfies bindings body => .someSatisfies (Binding.regroupedAll bindings) body.regrouped
  | .parenthesized inner => .parenthesized inner.regrouped
  | .and left right => .and left.regrouped right.regrouped
  | .or left right => .or left.regrouped right.regrouped
  | .not inner => .not inner.regrouped

/-- A condition in which no step continues a path, if there is one. -/
def Condition.regroupedIfPresent : Option Condition → Option Condition
  | none => none
  | some condition => some condition.regrouped

/-- Bindings in whose sources no step continues a path. -/
def Binding.regroupedAll : List Binding → List Binding
  | [] => []
  | ⟨name, source⟩ :: rest => ⟨name, source.regrouped⟩ :: Binding.regroupedAll rest
end

/-! ## A single step -/

namespace Query

variable (axis : Axis) (path : Path)

theorem two_le_tightness_continued (base : Query) : 2 ≤ (base.continued axis path).tightness := by
  cases base <;> simp [continued, tightness]

theorem isOpenEnded_continued (base : Query) : (base.continued axis path).isOpenEnded = false := by
  cases base <;> rfl

theorem tokens_continued (base : Query) :
    (base.continued axis path).tokens = (step base axis path).tokens := by
  cases base with
  | document base =>
      rw [continued, tokens, tokens, tokens, DocumentPath.tokens, DocumentPath.tokens, Path.operand,
        Path.tightness_graft]
      simp [Path.parenthesizedIf, Path.tokens_graft, tightness, enclosedIf]
  | step base outer inner =>
      rw [continued, tokens, tokens, tokens, Path.operand, Path.tightness_graft]
      simp [Path.parenthesizedIf, Path.tokens_graft, tightness, enclosedIf]
  | _ => rfl

theorem isPrintable_continued {base : Query} (printable : base.isPrintable = true)
    (printablePath : path.isPrintable = true) : (base.continued axis path).isPrintable = true := by
  cases base with
  | document base =>
      rw [isPrintable, isPrintableWith, DocumentPath.isPrintable, Bool.and_eq_true] at printable
      rw [continued, isPrintable, isPrintableWith, DocumentPath.isPrintable, printable.1,
        Path.isPrintable_graft, printable.2, printablePath]
      rfl
  | step base outer inner =>
      simp only [isPrintable, isPrintableWith, Bool.and_eq_true] at printable
      simp only [continued, isPrintable, isPrintableWith, Path.isPrintable_graft, Bool.and_eq_true]
      exact ⟨printable.1, printable.2, printablePath⟩
  | _ =>
      rw [isPrintable] at printable
      rw [continued, isPrintable, isPrintableWith, printable, printablePath]
      · rfl
      all_goals intros; contradiction

theorem evaluate_continued (library : Library) (base : Query) (scope : Scope) :
    (base.continued axis path).evaluate library scope =
      (step base axis path).evaluate library scope := by
  cases base with
  | document base =>
      rw [continued, evaluate, evaluate, evaluate, Evaluation.documentPath, Evaluation.documentPath,
        bind_assoc]
      simp only [Path.selectAlong_graft]
      rfl
  | step base outer inner =>
      rw [continued, evaluate, evaluate, evaluate, bind_assoc]
      simp only [Path.selectAlong_graft]
      rfl
  | _ => rfl

theorem constant?_continued (base : Query) : (base.continued axis path).constant? = none := by
  cases base <;> rfl

end Query

/-! ## Tokens -/

theorem Query.isOpenEnded_regrouped : (query : Query) →
    query.regrouped.isOpenEnded = query.isOpenEnded
  | .pair _ right => by rw [regrouped, isOpenEnded, isOpenEnded, right.isOpenEnded_regrouped]
  | .step base axis path => by
      rw [regrouped, isOpenEnded_continued]
      rfl
  | .reference _ | .constant _ | .document _ | .parenthesized _ | .element _ _ | .join _ _ _ _
  | .letIn _ _ | .flwr _ _ _ _ => by
      simp [regrouped, isOpenEnded]

theorem Query.tightness_regrouped (query : Query) {demanded : Nat} (within : demanded ≤ 2) :
    query.regrouped.tightness < demanded ↔ query.tightness < demanded := by
  cases query with
  | step base axis path =>
      have tight := base.regrouped.two_le_tightness_continued axis path
      rw [regrouped, tightness]
      omega
  | _ => simp [regrouped, tightness]

theorem Query.needsParentheses_regrouped (query : Query) :
    query.regrouped.needsParentheses = query.needsParentheses := by
  rw [needsParentheses, needsParentheses, isOpenEnded_regrouped,
    decide_eq_decide.mpr (query.tightness_regrouped (by decide))]

theorem Condition.tightness_regrouped (condition : Condition) :
    condition.regrouped.tightness = condition.tightness := by
  cases condition <;> rw [regrouped] <;> rfl

theorem Condition.isOpenEnded_regrouped : (condition : Condition) →
    condition.regrouped.isOpenEnded = condition.isOpenEnded
  | .and _ right | .or _ right => by
      rw [regrouped, isOpenEnded, isOpenEnded, right.isOpenEnded_regrouped]
  | .not inner => by rw [regrouped, isOpenEnded, isOpenEnded, inner.isOpenEnded_regrouped]
  | .valueEq _ _ | .identityEq _ _ | .empty _ | .someSatisfies _ _ | .parenthesized _ => by
      rw [regrouped]
      rfl

theorem Binding.isEmpty_regroupedAll (bindings : List Binding) :
    (Binding.regroupedAll bindings).isEmpty = bindings.isEmpty := by
  cases bindings with
  | nil => rfl
  | cons binding rest =>
      obtain ⟨_, _⟩ := binding
      rw [Binding.regroupedAll]
      rfl

mutual
/-- A regrouped query is printed with the same tokens. -/
theorem Query.tokens_regrouped : (query : Query) → query.regrouped.tokens = query.tokens
  | .reference _ | .constant _ | .document _ => by rw [Query.regrouped]
  | .parenthesized inner => by
      rw [Query.regrouped, Query.tokens, Query.tokens, inner.tokens_regrouped]
  | .pair left right => by
      rw [Query.regrouped, Query.tokens, Query.tokens, left.tokens_regrouped,
        right.tokens_regrouped, left.isOpenEnded_regrouped,
        decide_eq_decide.mpr (right.tightness_regrouped (by decide))]
  | .step base axis path => by
      rw [Query.regrouped, Query.tokens_continued, Query.tokens, Query.tokens,
        base.tokens_regrouped, decide_eq_decide.mpr (base.tightness_regrouped (by decide))]
  | .element _ body => by
      rw [Query.regrouped, Query.tokens, Query.tokens, body.tokens_regrouped]
  | .join left right _ _ => by
      rw [Query.regrouped, Query.tokens, Query.tokens, left.tokens_regrouped,
        right.tokens_regrouped, left.needsParentheses_regrouped, right.needsParentheses_regrouped]
  | .letIn bindings body => by
      rw [Query.regrouped, Query.tokens, Query.tokens, Binding.tokensAll_regroupedAll ":=" bindings,
        body.tokens_regrouped]
  | .flwr bindings lets condition result => by
      rw [Query.regrouped, Query.tokens, Query.tokens, Binding.tokensAll_regroupedAll "in" bindings,
        Binding.tokensAll_regroupedAll ":=" lets, Binding.isEmpty_regroupedAll,
        Condition.tokensWhere_regrouped condition, result.tokens_regrouped]

theorem Condition.tokens_regrouped : (condition : Condition) →
    condition.regrouped.tokens = condition.tokens
  | .valueEq left right => by
      rw [Condition.regrouped, Condition.tokens, Condition.tokens, left.tokens_regrouped,
        right.tokens_regrouped, left.needsParentheses_regrouped, right.needsParentheses_regrouped]
  | .identityEq left right => by
      rw [Condition.regrouped, Condition.tokens, Condition.tokens, left.tokens_regrouped,
        right.tokens_regrouped, left.needsParentheses_regrouped, right.needsParentheses_regrouped]
  | .empty query => by
      rw [Condition.regrouped, Condition.tokens, Condition.tokens, query.tokens_regrouped]
  | .someSatisfies bindings body => by
      rw [Condition.regrouped, Condition.tokens, Condition.tokens,
        Binding.tokensAll_regroupedAll "in" bindings, body.tokens_regrouped]
  | .parenthesized inner => by
      rw [Condition.regrouped, Condition.tokens, Condition.tokens, inner.tokens_regrouped]
  | .and left right => by
      rw [Condition.regrouped, Condition.tokens, Condition.tokens, left.tokens_regrouped,
        right.tokens_regrouped, left.isOpenEnded_regrouped, left.tightness_regrouped,
        right.tightness_regrouped]
  | .or left right => by
      rw [Condition.regrouped, Condition.tokens, Condition.tokens, left.tokens_regrouped,
        right.tokens_regrouped, left.isOpenEnded_regrouped, right.tightness_regrouped]
  | .not inner => by
      rw [Condition.regrouped, Condition.tokens, Condition.tokens, inner.tokens_regrouped,
        inner.tightness_regrouped]

theorem Condition.tokensWhere_regrouped : (condition : Option Condition) →
    Condition.tokensWhere (Condition.regroupedIfPresent condition) =
      Condition.tokensWhere condition
  | none => rfl
  | some condition => by
      rw [Condition.regroupedIfPresent, Condition.tokensWhere, Condition.tokensWhere,
        condition.tokens_regrouped]

theorem Binding.tokensAll_regroupedAll (operator : String) : (bindings : List Binding) →
    Binding.tokensAll operator (Binding.regroupedAll bindings) =
      Binding.tokensAll operator bindings
  | [] => rfl
  | ⟨_, source⟩ :: rest => by
      rw [Binding.regroupedAll, Binding.tokensAll, Binding.tokensAll, source.tokens_regrouped,
        source.needsParentheses_regrouped, Binding.tokensAll_regroupedAll operator rest]
end

/-! ## Printability -/

section

variable {binder : String → Bool} {anyBase : Query → Bool}

mutual
/-- A regrouped query can be read back as it is. -/
theorem Query.isPrintable_regrouped : (query : Query) →
    query.isPrintableWith binder anyBase = true → query.regrouped.isPrintable = true
  | .reference _, printable | .constant _, printable | .document _, printable => by
      rw [Query.regrouped]
      exact printable
  | .parenthesized inner, printable => by
      rw [Query.isPrintableWith] at printable
      rw [Query.regrouped, Query.isPrintable, Query.isPrintableWith]
      exact inner.isPrintable_regrouped printable
  | .pair left right, printable => by
      rw [Query.isPrintableWith, Bool.and_eq_true] at printable
      rw [Query.regrouped, Query.isPrintable, Query.isPrintableWith, Bool.and_eq_true]
      exact ⟨left.isPrintable_regrouped printable.1, right.isPrintable_regrouped printable.2⟩
  | .step base axis path, printable => by
      simp only [Query.isPrintableWith, Bool.and_eq_true] at printable
      rw [Query.regrouped]
      exact Query.isPrintable_continued axis path (base.isPrintable_regrouped printable.1.2)
        printable.2
  | .element _ body, printable => by
      rw [Query.isPrintableWith, Bool.and_eq_true] at printable
      rw [Query.regrouped, Query.isPrintable, Query.isPrintableWith, Bool.and_eq_true]
      exact ⟨printable.1, body.isPrintable_regrouped printable.2⟩
  | .join left right _ _, printable => by
      simp only [Query.isPrintableWith, Bool.and_eq_true] at printable
      simp only [Query.regrouped, Query.isPrintable, Query.isPrintableWith, Bool.and_eq_true]
      exact ⟨⟨⟨left.isPrintable_regrouped printable.1.1.1,
        right.isPrintable_regrouped printable.1.1.2⟩, printable.1.2⟩, printable.2⟩
  | .letIn bindings body, printable => by
      simp only [Query.isPrintableWith, Bool.and_eq_true] at printable
      simp only [Query.regrouped, Query.isPrintable, Query.isPrintableWith, Bool.and_eq_true,
        Binding.isEmpty_regroupedAll]
      exact ⟨⟨printable.1.1, Binding.arePrintable_regroupedAll bindings printable.1.2⟩,
        body.isPrintable_regrouped printable.2⟩
  | .flwr bindings lets condition result, printable => by
      simp only [Query.isPrintableWith, Bool.and_eq_true] at printable
      simp only [Query.regrouped, Query.isPrintable, Query.isPrintableWith, Bool.and_eq_true,
        Binding.isEmpty_regroupedAll]
      obtain ⟨⟨⟨⟨bound, printableBindings⟩, printableLets⟩, printableWhere⟩, printableResult⟩ :=
        printable
      exact ⟨⟨⟨⟨bound, Binding.arePrintable_regroupedAll bindings printableBindings⟩,
        Binding.arePrintable_regroupedAll lets printableLets⟩,
        Condition.isPrintable_regroupedIfPresent condition printableWhere⟩,
        result.isPrintable_regrouped printableResult⟩

theorem Condition.isPrintable_regrouped : (condition : Condition) →
    condition.isPrintableWith binder anyBase = true → condition.regrouped.isPrintable = true
  | .valueEq left right, printable => by
      rw [Condition.isPrintableWith, Bool.and_eq_true] at printable
      rw [Condition.regrouped, Condition.isPrintable, Condition.isPrintableWith, Bool.and_eq_true]
      exact ⟨left.isPrintable_regrouped printable.1, right.isPrintable_regrouped printable.2⟩
  | .identityEq left right, printable => by
      rw [Condition.isPrintableWith, Bool.and_eq_true] at printable
      rw [Condition.regrouped, Condition.isPrintable, Condition.isPrintableWith, Bool.and_eq_true]
      exact ⟨left.isPrintable_regrouped printable.1, right.isPrintable_regrouped printable.2⟩
  | .empty query, printable => by
      rw [Condition.isPrintableWith] at printable
      rw [Condition.regrouped, Condition.isPrintable, Condition.isPrintableWith]
      exact query.isPrintable_regrouped printable
  | .someSatisfies bindings body, printable => by
      simp only [Condition.isPrintableWith, Bool.and_eq_true] at printable
      simp only [Condition.regrouped, Condition.isPrintable, Condition.isPrintableWith,
        Bool.and_eq_true, Binding.isEmpty_regroupedAll]
      exact ⟨⟨printable.1.1, Binding.arePrintable_regroupedAll bindings printable.1.2⟩,
        body.isPrintable_regrouped printable.2⟩
  | .parenthesized inner, printable => by
      rw [Condition.isPrintableWith] at printable
      rw [Condition.regrouped, Condition.isPrintable, Condition.isPrintableWith]
      exact inner.isPrintable_regrouped printable
  | .and left right, printable => by
      rw [Condition.isPrintableWith, Bool.and_eq_true] at printable
      rw [Condition.regrouped, Condition.isPrintable, Condition.isPrintableWith, Bool.and_eq_true]
      exact ⟨left.isPrintable_regrouped printable.1, right.isPrintable_regrouped printable.2⟩
  | .or left right, printable => by
      rw [Condition.isPrintableWith, Bool.and_eq_true] at printable
      rw [Condition.regrouped, Condition.isPrintable, Condition.isPrintableWith, Bool.and_eq_true]
      exact ⟨left.isPrintable_regrouped printable.1, right.isPrintable_regrouped printable.2⟩
  | .not inner, printable => by
      rw [Condition.isPrintableWith] at printable
      rw [Condition.regrouped, Condition.isPrintable, Condition.isPrintableWith]
      exact inner.isPrintable_regrouped printable

theorem Condition.isPrintable_regroupedIfPresent : (condition : Option Condition) →
    Condition.isPrintableIfPresent binder anyBase condition = true →
      Condition.isPrintableIfPresent (fun _ => true) (fun base => !base.endsInPath)
        (Condition.regroupedIfPresent condition) = true
  | none, _ => rfl
  | some condition, printable => by
      rw [Condition.isPrintableIfPresent] at printable
      rw [Condition.regroupedIfPresent, Condition.isPrintableIfPresent]
      exact condition.isPrintable_regrouped printable

theorem Binding.arePrintable_regroupedAll : (bindings : List Binding) →
    Binding.arePrintableWith binder anyBase bindings = true →
      Binding.arePrintable (Binding.regroupedAll bindings) = true
  | [], _ => rfl
  | ⟨_, source⟩ :: rest, printable => by
      simp only [Binding.arePrintableWith, Bool.and_eq_true] at printable
      simp only [Binding.regroupedAll, Binding.arePrintable, Binding.arePrintableWith,
        Bool.and_eq_true]
      exact ⟨⟨⟨printable.1.1.1, trivial⟩, source.isPrintable_regrouped printable.1.2⟩,
        Binding.arePrintable_regroupedAll rest printable.2⟩
end

end

/-! ## Values -/

theorem Query.constant?_regrouped : (query : Query) → query.regrouped.constant? = query.constant?
  | .parenthesized inner => by
      rw [regrouped, constant?, constant?, unparenthesized, unparenthesized]
      exact inner.constant?_regrouped
  | .step base axis path => by
      rw [regrouped, constant?_continued]
      rfl
  | .reference _ | .constant _ | .document _ => by rw [regrouped]
  | .pair _ _ | .element _ _ | .join _ _ _ _ | .letIn _ _ | .flwr _ _ _ _ => by
      rw [regrouped]
      rfl

section

variable (library : Library)

mutual
/-- A regrouped query has the value of the query. -/
theorem Query.evaluate_regrouped : (query : Query) → (scope : Scope) →
    query.regrouped.evaluate library scope = query.evaluate library scope
  | .reference _, _ | .constant _, _ | .document _, _ => by rw [Query.regrouped]
  | .parenthesized inner, scope => by
      rw [Query.regrouped, Query.evaluate, Query.evaluate, inner.evaluate_regrouped]
  | .pair left right, scope => by
      rw [Query.regrouped, Query.evaluate, Query.evaluate, left.evaluate_regrouped,
        right.evaluate_regrouped]
  | .step base axis path, scope => by
      rw [Query.regrouped, Query.evaluate_continued, Query.evaluate, Query.evaluate,
        base.evaluate_regrouped]
  | .element _ body, scope => by
      rw [Query.regrouped, Query.evaluate, Query.evaluate, body.evaluate_regrouped]
  | .join left right _ _, scope => by
      rw [Query.regrouped, Query.evaluate, Query.evaluate, left.evaluate_regrouped,
        right.evaluate_regrouped]
  | .letIn bindings body, scope => by
      simp only [Query.regrouped, Query.evaluate, Binding.bindApart_regroupedAll bindings,
        body.evaluate_regrouped]
  | .flwr bindings lets condition result, scope => by
      simp only [Query.regrouped, Query.evaluate, Binding.collectTuples_regroupedAll bindings,
        Binding.bindInOrder_regroupedAll lets, Condition.holdsIfPresent_regrouped condition,
        result.evaluate_regrouped]

theorem Condition.holds_regrouped : (condition : Condition) → (scope : Scope) →
    condition.regrouped.holds library scope = condition.holds library scope
  | .valueEq left right, scope => by
      simp only [Condition.regrouped, Condition.holds, Query.constant?_regrouped,
        left.evaluate_regrouped, right.evaluate_regrouped]
  | .identityEq left right, scope => by
      simp only [Condition.regrouped, Condition.holds, left.evaluate_regrouped,
        right.evaluate_regrouped]
  | .empty query, scope => by
      simp only [Condition.regrouped, Condition.holds, query.evaluate_regrouped]
  | .someSatisfies bindings body, scope => by
      simp only [Condition.regrouped, Condition.holds, Binding.anyTuple_regroupedAll bindings,
        body.holds_regrouped]
  | .parenthesized inner, scope => by
      rw [Condition.regrouped, Condition.holds, Condition.holds, inner.holds_regrouped]
  | .and left right, scope => by
      simp only [Condition.regrouped, Condition.holds, left.holds_regrouped,
        right.holds_regrouped]
  | .or left right, scope => by
      simp only [Condition.regrouped, Condition.holds, left.holds_regrouped,
        right.holds_regrouped]
  | .not inner, scope => by
      simp only [Condition.regrouped, Condition.holds, inner.holds_regrouped]

theorem Condition.holdsIfPresent_regrouped : (condition : Option Condition) → (scope : Scope) →
    Condition.holdsIfPresent library (Condition.regroupedIfPresent condition) scope =
      Condition.holdsIfPresent library condition scope
  | none, _ => rfl
  | some condition, scope => by
      rw [Condition.regroupedIfPresent, Condition.holdsIfPresent, Condition.holdsIfPresent,
        condition.holds_regrouped]

theorem Binding.collectTuples_regroupedAll : (bindings : List Binding) → (scope : Scope) →
    (visit : Scope → Evaluation (List Item)) →
      Binding.collectTuples library (Binding.regroupedAll bindings) scope visit =
        Binding.collectTuples library bindings scope visit
  | [], _, _ => rfl
  | ⟨_, source⟩ :: rest, scope, visit => by
      simp only [Binding.regroupedAll, Binding.collectTuples, source.evaluate_regrouped,
        Binding.collectTuples_regroupedAll rest]

theorem Binding.anyTuple_regroupedAll : (bindings : List Binding) → (scope : Scope) →
    (visit : Scope → Evaluation Bool) →
      Binding.anyTuple library (Binding.regroupedAll bindings) scope visit =
        Binding.anyTuple library bindings scope visit
  | [], _, _ => rfl
  | ⟨_, source⟩ :: rest, scope, visit => by
      simp only [Binding.regroupedAll, Binding.anyTuple, source.evaluate_regrouped,
        Binding.anyTuple_regroupedAll rest]

theorem Binding.bindInOrder_regroupedAll : (bindings : List Binding) → (scope : Scope) →
    (visit : Scope → Evaluation (List Item)) →
      Binding.bindInOrder library (Binding.regroupedAll bindings) scope visit =
        Binding.bindInOrder library bindings scope visit
  | [], _, _ => rfl
  | ⟨_, source⟩ :: rest, scope, visit => by
      simp only [Binding.regroupedAll, Binding.bindInOrder, source.evaluate_regrouped,
        Binding.bindInOrder_regroupedAll rest]

theorem Binding.bindApart_regroupedAll : (bindings : List Binding) → (outer inner : Scope) →
    Binding.bindApart library (Binding.regroupedAll bindings) outer inner =
      Binding.bindApart library bindings outer inner
  | [], _, _ => rfl
  | ⟨_, source⟩ :: rest, outer, inner => by
      simp only [Binding.regroupedAll, Binding.bindApart, source.evaluate_regrouped,
        Binding.bindApart_regroupedAll rest]
end

end

end TreeQuery
