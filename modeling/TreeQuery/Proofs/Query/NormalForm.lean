import TreeQuery.Proofs.Query.Correspondence
import TreeQuery.Proofs.Query.StrictRenaming

/-!
# Renaming computes a normal form

Names that are linked get the same new name, since the numbers are handed out in the same order
in both queries; so alpha-equivalent queries are renamed to the same query
(`Query.AlphaEquivalent.renaming_eq`).  A renamed query corresponds to the query, and permissive
renaming gives all free names one name, which connects any two of them.

Together the renamed query is a normal form of closed queries up to alpha-equivalence, and
renaming a renamed query changes nothing (`Query.rename_isNormalForm`).
-/

set_option autoImplicit false

namespace TreeQuery

open Renaming

variable {strict : Bool} {free : String → String → Prop}

/-! ## Corresponding queries are renamed alike -/

/-- Linked names get the same new name. -/
def Links.Agree (strict : Bool) (free : String → String → Prop) (links : Links)
    (names others : NewNames) : Prop :=
  ∀ first second, links.Connect free first second →
    resolve strict names first = resolve strict others second

/-- A binding on both sides gets the same new name. -/
theorem Links.Agree.cons {links : Links} {names others : NewNames}
    (agree : links.Agree strict free names others) (left right newName : String) :
    Links.Agree strict free ((left, right) :: links) ((left, newName) :: names)
      ((right, newName) :: others) := by
  intro first second connect
  rcases connect with ⟨rfl, rfl⟩ | ⟨apart, apartToo, connect⟩
  · rw [resolve, resolve, List.lookup_cons_self, List.lookup_cons_self]
  · rw [resolve, resolve, List.lookup_cons, List.lookup_cons, beq_false_of_ne apart,
      beq_false_of_ne apartToo]
    exact agree first second connect

mutual
theorem Query.Corresponds.renameIn_eq : {first : Query} → ∀ {second : Query} {links : Links}
    {names others : NewNames}, first.Corresponds free links second →
      links.Agree strict free names others →
        first.renameIn strict names = second.renameIn strict others
  | .reference _, _, _, _, _, .reference connect, agree => by
      rw [Query.renameIn, Query.renameIn, agree _ _ connect]
  | .constant _, _, _, _, _, .constant _, _ => by rw [Query.renameIn, Query.renameIn]
  | .document _, _, _, _, _, .document _, _ => by rw [Query.renameIn, Query.renameIn]
  | .parenthesized _, _, _, _, _, .parenthesized inner, agree => by
      rw [Query.renameIn, Query.renameIn, inner.renameIn_eq agree]
  | .pair _ _, _, _, _, _, .pair left right, agree => by
      rw [Query.renameIn, Query.renameIn, left.renameIn_eq agree, right.renameIn_eq agree]
  | .step _ _ _, _, _, _, _, .step base, agree => by
      rw [Query.renameIn, Query.renameIn, base.renameIn_eq agree]
  | .element _ _, _, _, _, _, .element body, agree => by
      rw [Query.renameIn, Query.renameIn, body.renameIn_eq agree]
  | .join _ _ _ _, _, _, _, _, .join left right, agree => by
      rw [Query.renameIn, Query.renameIn, left.renameIn_eq agree, right.renameIn_eq agree]
  | .letIn _ _, _, _, _, _, .letIn bindings body, agree => by
      rw [Query.renameIn, Query.renameIn]
      refine bindings.renameApart_bind agree agree fun renamed _ _ agreeInner => ?_
      dsimp only
      rw [body.renameIn_eq agreeInner]
  | .flwr _ _ _ _, _, _, _, _, .flwr bindings lets condition result, agree => by
      rw [Query.renameIn, Query.renameIn]
      refine bindings.renameInOrder_bind agree fun renamed _ _ agree => ?_
      refine lets.renameInOrder_bind agree fun renamedLets _ _ agree => ?_
      dsimp only
      rw [condition.renameIfPresent_eq agree, result.renameIn_eq agree]

theorem Condition.Corresponds.renameIn_eq : {first : Condition} → ∀ {second : Condition}
    {links : Links} {names others : NewNames}, first.Corresponds free links second →
      links.Agree strict free names others →
        first.renameIn strict names = second.renameIn strict others
  | .valueEq _ _, _, _, _, _, .valueEq left right, agree => by
      rw [Condition.renameIn, Condition.renameIn, left.renameIn_eq agree, right.renameIn_eq agree]
  | .identityEq _ _, _, _, _, _, .identityEq left right, agree => by
      rw [Condition.renameIn, Condition.renameIn, left.renameIn_eq agree, right.renameIn_eq agree]
  | .empty _, _, _, _, _, .empty query, agree => by
      rw [Condition.renameIn, Condition.renameIn, query.renameIn_eq agree]
  | .someSatisfies _ _, _, _, _, _, .someSatisfies bindings body, agree => by
      rw [Condition.renameIn, Condition.renameIn]
      refine bindings.renameInOrder_bind agree fun renamed _ _ agree => ?_
      dsimp only
      rw [body.renameIn_eq agree]
  | .parenthesized _, _, _, _, _, .parenthesized inner, agree => by
      rw [Condition.renameIn, Condition.renameIn, inner.renameIn_eq agree]
  | .and _ _, _, _, _, _, .and left right, agree => by
      rw [Condition.renameIn, Condition.renameIn, left.renameIn_eq agree, right.renameIn_eq agree]
  | .or _ _, _, _, _, _, .or left right, agree => by
      rw [Condition.renameIn, Condition.renameIn, left.renameIn_eq agree, right.renameIn_eq agree]
  | .not _, _, _, _, _, .not inner, agree => by
      rw [Condition.renameIn, Condition.renameIn, inner.renameIn_eq agree]

theorem Condition.CorrespondIfPresent.renameIfPresent_eq : {first : Option Condition} →
    ∀ {second : Option Condition} {links : Links} {names others : NewNames},
      Condition.CorrespondIfPresent free links first second →
        links.Agree strict free names others →
          Condition.renameIfPresent strict first names =
            Condition.renameIfPresent strict second others
  | none, _, _, _, _, .none, _ => by rw [Condition.renameIfPresent, Condition.renameIfPresent]
  | some _, _, _, _, _, .some condition, agree => by
      rw [Condition.renameIfPresent, Condition.renameIfPresent, condition.renameIn_eq agree]

/-- Clauses that correspond are renamed alike, and so is what follows them. -/
theorem Binding.CorrespondInOrder.renameInOrder_bind {α : Type} : {first : List Binding} →
    ∀ {second : List Binding} {links inner : Links} {names others : NewNames}
      {next otherNext : List Binding × NewNames → Renaming α},
      Binding.CorrespondInOrder free links first second inner →
        links.Agree strict free names others →
          (∀ renamed innerNames otherInner, inner.Agree strict free innerNames otherInner →
            next (renamed, innerNames) = otherNext (renamed, otherInner)) →
              (Binding.renameInOrder strict first names >>= next) =
                (Binding.renameInOrder strict second others >>= otherNext)
  | [], _, _, _, _, _, _, _, .nil, agree, same => by
      rw [Binding.renameInOrder, Binding.renameInOrder, pure_bind, pure_bind]
      exact same [] _ _ agree
  | ⟨_, _⟩ :: _, _, _, _, _, _, _, _, .cons source rest, agree, same => by
      rw [Binding.renameInOrder, Binding.renameInOrder, source.renameIn_eq agree]
      simp only [bind_assoc]
      refine bind_congr fun source => bind_congr fun newName => ?_
      refine rest.renameInOrder_bind (agree.cons _ _ newName) fun renamed _ _ agree => ?_
      exact same (⟨newName, source⟩ :: renamed) _ _ agree

theorem Binding.CorrespondApart.renameApart_bind {α : Type} : {first : List Binding} →
    ∀ {second : List Binding} {outer links inner : Links}
      {outerNames otherOuter names others : NewNames}
      {next otherNext : List Binding × NewNames → Renaming α},
      Binding.CorrespondApart free outer links first second inner →
        outer.Agree strict free outerNames otherOuter → links.Agree strict free names others →
          (∀ renamed innerNames otherInner, inner.Agree strict free innerNames otherInner →
            next (renamed, innerNames) = otherNext (renamed, otherInner)) →
              (Binding.renameApart strict first outerNames names >>= next) =
                (Binding.renameApart strict second otherOuter others >>= otherNext)
  | [], _, _, _, _, _, _, _, _, _, _, .nil, _, agree, same => by
      rw [Binding.renameApart, Binding.renameApart, pure_bind, pure_bind]
      exact same [] _ _ agree
  | ⟨_, _⟩ :: _, _, _, _, _, _, _, _, _, _, _, .cons source rest, outer, agree, same => by
      rw [Binding.renameApart, Binding.renameApart, source.renameIn_eq outer]
      simp only [bind_assoc]
      refine bind_congr fun source => bind_congr fun newName => ?_
      refine rest.renameApart_bind outer (agree.cons _ _ newName) fun renamed _ _ agree => ?_
      exact same (⟨newName, source⟩ :: renamed) _ _ agree
end

/-- **Alpha-equivalent queries are renamed to the same query**, or renaming them fails in the
same way. -/
theorem Query.AlphaEquivalent.renaming_eq {first second : Query}
    (equivalent : first.AlphaEquivalent second) : first.renaming strict = second.renaming strict :=
  Query.Corresponds.renameIn_eq equivalent fun _ _ same => congrArg (resolve strict []) same

/-! ## The normal form -/

/-- **A renamed query is alpha-equivalent to the query** if no name is free. -/
theorem Query.alphaEquivalent_rename {query : Query} (closed : query.free [] = []) :
    query.AlphaEquivalent query.rename := by
  obtain ⟨renamed, later, run, permissive, _⟩ := query.renaming_checks.passes closed 0
  obtain ⟨_, renames⟩ := query.run_rename
  obtain ⟨rfl, _⟩ := EStateM.Result.ok.inj (permissive.symm.trans renames)
  exact Query.corresponds_of_renaming nofun run

theorem Query.rename_eq_of_renaming_eq {first second : Query}
    (same : first.renaming false = second.renaming false) : first.rename = second.rename := by
  obtain ⟨_, run⟩ := first.run_rename
  obtain ⟨_, otherRun⟩ := second.run_rename
  rw [same] at run
  exact (EStateM.Result.ok.inj (run.symm.trans otherRun)).1

/-- **Renaming computes a normal form.**  Queries without free names are renamed to the same
query exactly if they are alpha-equivalent, and renaming a renamed query changes nothing, also if
it has free names. -/
theorem Query.rename_isNormalForm :
    (∀ first second : Query, first.free [] = [] → second.free [] = [] →
      (first.rename = second.rename ↔ first.AlphaEquivalent second)) ∧
    ∀ query : Query, query.rename.rename = query.rename := by
  constructor
  · intro first second closed otherClosed
    constructor
    · intro same
      have equivalent := Query.alphaEquivalent_rename closed
      rw [same] at equivalent
      exact alphaEquivalent_equivalence.trans equivalent
        (alphaEquivalent_equivalence.symm (Query.alphaEquivalent_rename otherClosed))
    · intro equivalent
      exact rename_eq_of_renaming_eq equivalent.renaming_eq
  · intro query
    have agree : Links.Agree false Undefines [] [] [] := fun _ _ _ => rfl
    exact (rename_eq_of_renaming_eq (query.corresponds_rename.renameIn_eq agree)).symm

/-- The inner variable of one query hides the outer one, in the other it has a name of its own;
a query that returns the outer variable is another one. -/
theorem Query.rename_isNormalForm_shadowing :
    let nested (outer inner result : String) : Query :=
      .flwr [⟨outer, .document ⟨"f", .child, .tag "a"⟩⟩] [] none
        (.flwr [⟨inner, .step (.reference outer) .child (.tag "b")⟩] [] none (.reference result))
    (nested "x" "x" "x").free [] = [] ∧ (nested "a" "b" "b").free [] = [] ∧
      (nested "x" "x" "x").AlphaEquivalent (nested "a" "b" "b") ∧
      ¬(nested "x" "x" "x").AlphaEquivalent (nested "a" "b" "a") := by
  intro nested
  have closed : (nested "x" "x" "x").free [] = [] := by decide
  have otherClosed : (nested "a" "b" "b").free [] = [] := by decide
  have same := Query.rename_isNormalForm.1 _ (nested "a" "b" "b") closed otherClosed
  have different := Query.rename_isNormalForm.1 _ (nested "a" "b" "a") closed (by decide)
  exact ⟨closed, otherClosed, same.mp rfl, different.not.mp (by decide +kernel)⟩

end TreeQuery
