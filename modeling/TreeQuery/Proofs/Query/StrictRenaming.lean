import TreeQuery.Proofs.Lists
import TreeQuery.Proofs.Query.Correspondence
import TreeQuery.Proofs.Query.FreeNames

/-!
# Strict renaming checks scopes

Strict renaming goes through a query in the order in which free names are listed, so it
stops at the first of them and at nothing else; without free names it does what permissive
renaming does, and the renamed query has no free names either
(`Query.renameIn_checks`).
-/

set_option autoImplicit false

namespace TreeQuery

namespace Renaming

variable {α β : Type}

/-- A strict computation fails with the first of some names, and if there is none it ends as
the permissive one does. -/
structure Checks (names : List String) (strict permissive : Renaming α) (ends : α → Prop) :
    Prop where
  stops : ∀ {name : String}, names.head? = some name →
    ∀ counter, ∃ later, strict counter = .error (.unboundVariable name) later
  passes : names = [] → ∀ counter, ∃ value later, strict counter = .ok value later ∧
    permissive counter = .ok value later ∧ ends value

namespace Checks

variable {names others : List String} {strict permissive : Renaming α} {ends : α → Prop}
variable {also : β → Prop}

theorem pure {value : α} (isEnd : ends value) :
    Checks [] (Pure.pure value) (Pure.pure value) ends where
  stops := nofun
  passes _ counter := ⟨value, counter, rfl, rfl, isEnd⟩

theorem fresh : Checks [] fresh fresh fun _ => True where
  stops := nofun
  passes _ _ := ⟨_, _, rfl, rfl, trivial⟩

/-- One computation after the other fails with the first name of the first, or of the second if
the first has none. -/
theorem bind {next otherNext : α → Renaming β} (checks : Checks names strict permissive ends)
    (continues : ∀ value, ends value → Checks others (next value) (otherNext value) also) :
    Checks (names ++ others) (strict >>= next) (permissive >>= otherNext) also where
  stops := by
    intro name first counter
    cases names with
    | cons _ _ =>
        obtain ⟨later, failed⟩ := checks.stops first counter
        refine ⟨later, ?_⟩
        simp only [Bind.bind, EStateM.bind, failed]
    | nil =>
        obtain ⟨value, middle, run, _, isEnd⟩ := checks.passes rfl counter
        rw [run_bind run]
        exact (continues value isEnd).stops first middle
  passes := by
    intro none counter
    obtain ⟨noneBefore, noneAfter⟩ := List.append_eq_nil_iff.mp none
    obtain ⟨value, middle, run, otherRun, isEnd⟩ := checks.passes noneBefore counter
    rw [run_bind run, run_bind otherRun]
    exact (continues value isEnd).passes noneAfter middle

/-- What follows a computation and meets no names adds none. -/
theorem andThen {next otherNext : α → Renaming β} (checks : Checks names strict permissive ends)
    (continues : ∀ value, ends value → Checks [] (next value) (otherNext value) also) :
    Checks names (strict >>= next) (permissive >>= otherNext) also := by
  have checks := checks.bind continues
  rwa [List.append_nil] at checks

theorem map {result : α → β} (checks : Checks names strict permissive ends)
    (implies : ∀ value, ends value → also (result value)) :
    Checks names (do return result (← strict)) (do return result (← permissive)) also :=
  checks.andThen fun value isEnd => pure (implies value isEnd)

/-- A strict computation fails exactly with the first name. -/
theorem fails_iff (checks : Checks names strict permissive ends) {counter : Nat}
    {failure : Failure} : (∃ later, strict counter = .error failure later) ↔
      ∃ name, names.head? = some name ∧ failure = .unboundVariable name := by
  constructor
  · rintro ⟨later, failed⟩
    cases names with
    | nil =>
        obtain ⟨_, _, run, _⟩ := checks.passes rfl counter
        cases failed.symm.trans run
    | cons name rest =>
        obtain ⟨_, stopped⟩ := checks.stops rfl counter
        obtain ⟨rfl, _⟩ := EStateM.Result.error.inj (failed.symm.trans stopped)
        exact ⟨name, rfl, rfl⟩
  · rintro ⟨name, first, rfl⟩
    exact checks.stops first counter

/-- A strict computation that succeeds meets no names and ends as the permissive one does. -/
theorem of_ok (checks : Checks names strict permissive ends) {counter later : Nat} {value : α}
    (run : strict counter = .ok value later) :
    names = [] ∧ permissive counter = .ok value later ∧ ends value := by
  cases names with
  | nil =>
      obtain ⟨_, _, also, otherRun, isEnd⟩ := checks.passes rfl counter
      obtain ⟨rfl, rfl⟩ := EStateM.Result.ok.inj (run.symm.trans also)
      exact ⟨rfl, otherRun, isEnd⟩
  | cons name rest =>
      obtain ⟨_, stopped⟩ := checks.stops rfl counter
      cases run.symm.trans stopped

end Checks

/-- A reference is resolved exactly where its name is bound. -/
theorem checks_resolve (newNames : NewNames) (name : String) :
    Checks (if name ∈ newNames.map Prod.fst then [] else [name]) (resolve true newNames name)
      (resolve false newNames name) (· ∈ newNames.map Prod.snd) := by
  rw [resolve, resolve]
  cases found : newNames.lookup name with
  | some newName =>
      have entry := mem_of_lookup found
      rw [if_pos (List.mem_map_of_mem entry)]
      exact .pure (List.mem_map_of_mem entry)
  | none =>
      have unlisted : name ∉ newNames.map Prod.fst := by
        intro listed
        obtain ⟨entry, member, rfl⟩ := List.mem_map.mp listed
        exact bne_iff_ne.mp (List.lookup_eq_none_iff.mp found entry member) rfl
      rw [if_neg unlisted]
      refine ⟨fun first counter => ⟨counter, ?_⟩, fun none => absurd none (List.cons_ne_nil _ _)⟩
      obtain rfl := Option.some.inj first
      rfl

/-- Bindings that have been renamed have no free names, and the names in scope behind them are
those that they bind, under both names. -/
structure RenamesClause (free : List Binding → List String) (names : NewNames)
    (bindings : List Binding) (result : List Binding × NewNames) : Prop where
  closed : free result.1 = []
  before : result.2.map Prod.fst = Binding.boundBehind (names.map Prod.fst) bindings
  behind : result.2.map Prod.snd = Binding.boundBehind (names.map Prod.snd) result.1

end Renaming

open Renaming

mutual
/-- **Strict renaming stops at the first free name and nowhere else.** -/
theorem Query.renameIn_checks : (query : Query) → ∀ {names : NewNames},
    Checks (query.free (names.map Prod.fst)) (query.renameIn true names)
      (query.renameIn false names) fun renamed => renamed.free (names.map Prod.snd) = []
  | .reference name, names => by
      rw [Query.renameIn, Query.renameIn, Query.free]
      refine (checks_resolve names name).map fun newName listed => ?_
      rw [Query.free, if_pos listed]
  | .constant value, names => by
      rw [Query.renameIn, Query.renameIn, Query.free]
      exact .pure rfl
  | .document path, names => by
      rw [Query.renameIn, Query.renameIn, Query.free]
      exact .pure rfl
  | .parenthesized inner, names => by
      rw [Query.renameIn, Query.renameIn, Query.free]
      exact inner.renameIn_checks.map fun _ closed => closed
  | .pair left right, names => by
      rw [Query.renameIn, Query.renameIn, Query.free]
      refine left.renameIn_checks.bind fun _ leftClosed => ?_
      refine right.renameIn_checks.map fun _ rightClosed => ?_
      rw [Query.free, leftClosed, rightClosed, List.append_nil]
  | .step base axis path, names => by
      rw [Query.renameIn, Query.renameIn, Query.free]
      exact base.renameIn_checks.map fun _ closed => closed
  | .element name body, names => by
      rw [Query.renameIn, Query.renameIn, Query.free]
      exact body.renameIn_checks.map fun _ closed => closed
  | .join left right leftTags rightTags, names => by
      rw [Query.renameIn, Query.renameIn, Query.free]
      refine left.renameIn_checks.bind fun _ leftClosed => ?_
      refine right.renameIn_checks.map fun _ rightClosed => ?_
      rw [Query.free, leftClosed, rightClosed, List.append_nil]
  | .letIn bindings body, names => by
      rw [Query.renameIn, Query.renameIn, Query.free]
      refine (Binding.renameApart_checks bindings names names).bind fun (renamed, inner) ends => ?_
      rw [← ends.before]
      refine body.renameIn_checks.map fun _ closed => ?_
      rw [Query.free, ends.closed, ← ends.behind, closed, List.append_nil]
  | .flwr bindings lets condition result, names => by
      rw [Query.renameIn, Query.renameIn, Query.free]
      refine (Binding.renameInOrder_checks bindings names).bind fun (renamed, inner) ends => ?_
      rw [← ends.before]
      refine (Binding.renameInOrder_checks lets inner).bind
        fun (renamedLets, innermost) letEnds => ?_
      rw [← letEnds.before]
      refine (Condition.renameIfPresent_checks condition).bind fun _ conditionClosed => ?_
      refine result.renameIn_checks.map fun _ closed => ?_
      rw [Query.free, ends.closed, ← ends.behind, letEnds.closed, ← letEnds.behind,
        conditionClosed, closed]
      rfl

theorem Condition.renameIn_checks : (condition : Condition) → ∀ {names : NewNames},
    Checks (condition.free (names.map Prod.fst)) (condition.renameIn true names)
      (condition.renameIn false names) fun renamed => renamed.free (names.map Prod.snd) = []
  | .valueEq left right, names | .identityEq left right, names => by
      rw [Condition.renameIn, Condition.renameIn, Condition.free]
      refine left.renameIn_checks.bind fun _ leftClosed => ?_
      refine right.renameIn_checks.map fun _ rightClosed => ?_
      rw [Condition.free, leftClosed, rightClosed, List.append_nil]
  | .empty query, names => by
      rw [Condition.renameIn, Condition.renameIn, Condition.free]
      exact query.renameIn_checks.map fun _ closed => closed
  | .someSatisfies bindings body, names => by
      rw [Condition.renameIn, Condition.renameIn, Condition.free]
      refine (Binding.renameInOrder_checks bindings names).bind fun (renamed, inner) ends => ?_
      rw [← ends.before]
      refine body.renameIn_checks.map fun _ closed => ?_
      rw [Condition.free, ends.closed, ← ends.behind, closed, List.append_nil]
  | .parenthesized inner, names | .not inner, names => by
      rw [Condition.renameIn, Condition.renameIn, Condition.free]
      exact inner.renameIn_checks.map fun _ closed => closed
  | .and left right, names | .or left right, names => by
      rw [Condition.renameIn, Condition.renameIn, Condition.free]
      refine left.renameIn_checks.bind fun _ leftClosed => ?_
      refine right.renameIn_checks.map fun _ rightClosed => ?_
      rw [Condition.free, leftClosed, rightClosed, List.append_nil]

theorem Condition.renameIfPresent_checks : (condition : Option Condition) → ∀ {names : NewNames},
    Checks (Condition.freeIfPresent (names.map Prod.fst) condition)
      (Condition.renameIfPresent true condition names)
      (Condition.renameIfPresent false condition names)
      fun renamed => Condition.freeIfPresent (names.map Prod.snd) renamed = []
  | none, names => by
      rw [Condition.renameIfPresent, Condition.renameIfPresent, Condition.freeIfPresent]
      exact .pure rfl
  | some condition, names => by
      rw [Condition.renameIfPresent, Condition.renameIfPresent, Condition.freeIfPresent]
      exact condition.renameIn_checks.map fun _ closed => closed

theorem Binding.renameInOrder_checks : (bindings : List Binding) → ∀ names : NewNames,
    Checks (Binding.freeInOrder (names.map Prod.fst) bindings)
      (Binding.renameInOrder true bindings names) (Binding.renameInOrder false bindings names)
      (RenamesClause (Binding.freeInOrder (names.map Prod.snd)) names bindings)
  | [], names => by
      rw [Binding.renameInOrder, Binding.renameInOrder, Binding.freeInOrder]
      exact .pure ⟨rfl, rfl, rfl⟩
  | ⟨name, source⟩ :: rest, names => by
      rw [Binding.renameInOrder, Binding.renameInOrder, Binding.freeInOrder]
      refine source.renameIn_checks.bind fun _ sourceClosed => ?_
      refine Checks.fresh.bind fun newName _ => ?_
      refine (Binding.renameInOrder_checks rest ((name, newName) :: names)).andThen
        fun (renamed, inner) ends => ?_
      refine .pure ⟨?_, ends.before, ends.behind⟩
      rw [Binding.freeInOrder, sourceClosed]
      exact ends.closed

theorem Binding.renameApart_checks : (bindings : List Binding) → ∀ outer inner : NewNames,
    Checks (Binding.freeApart (outer.map Prod.fst) bindings)
      (Binding.renameApart true bindings outer inner)
      (Binding.renameApart false bindings outer inner)
      (RenamesClause (Binding.freeApart (outer.map Prod.snd)) inner bindings)
  | [], outer, inner => by
      rw [Binding.renameApart, Binding.renameApart, Binding.freeApart]
      exact .pure ⟨rfl, rfl, rfl⟩
  | ⟨name, source⟩ :: rest, outer, inner => by
      rw [Binding.renameApart, Binding.renameApart, Binding.freeApart]
      refine source.renameIn_checks.bind fun _ sourceClosed => ?_
      refine Checks.fresh.bind fun newName _ => ?_
      refine (Binding.renameApart_checks rest outer ((name, newName) :: inner)).andThen
        fun (renamed, inner) ends => ?_
      refine .pure ⟨?_, ends.before, ends.behind⟩
      rw [Binding.freeApart, sourceClosed]
      exact ends.closed
end

theorem Query.renaming_checks (query : Query) :
    Checks (query.free []) (query.renaming true) (query.renaming false)
      fun renamed => renamed.free [] = [] :=
  @Query.renameIn_checks query []

end TreeQuery
