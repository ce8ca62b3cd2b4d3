import TreeQuery.Proofs.Query.AlphaEquivalence
import TreeQuery.Query.Renaming

/-!
# Renamed queries correspond

The list of new names that the renamer keeps is itself a list of links: no two entries of it have
the same new name, so a renamed query corresponds to the query (`Query.renameIn_completes`).  This
is the only place where it matters that new names are fresh; what renaming keeps is proved of
queries that correspond.

In strict renaming nothing corresponds that is not bound.  Permissive renaming gives all free names
one name and always succeeds (`Query.exists_renaming`).
-/

set_option autoImplicit false

namespace TreeQuery

variable {strict : Bool} {free : String → String → Prop}

namespace Renaming

variable {α β : Type}

/-! ## Runs that only strict renaming stops -/

theorem run_bind {computation : Renaming α} {next : α → Renaming β} {counter later : Nat}
    {value : α} (run : computation counter = .ok value later) :
    (computation >>= next) counter = next value later := by
  simp only [Bind.bind, EStateM.bind, run]

/-- A computation fails in strict renaming only; otherwise the counter does not go back, and what
it ends with is good. -/
def Completes (strict : Bool) (counter : Nat) (computation : Renaming α)
    (good : α → Nat → Prop) : Prop :=
  match computation counter with
  | .ok value later => counter ≤ later ∧ good value later
  | .error _ _ => strict = true

namespace Completes

variable {counter later : Nat} {computation : Renaming α} {good : α → Nat → Prop}
variable {also : β → Nat → Prop}

theorem pure {value : α} (isGood : good value counter) :
    Completes strict counter (Pure.pure value) good :=
  ⟨Nat.le_refl counter, isGood⟩

theorem fresh : Completes strict counter fresh fun newName later =>
    newName = numbered (counter + 1) ∧ later = counter + 1 :=
  ⟨Nat.le_succ counter, rfl, rfl⟩

theorem bind {next : α → Renaming β} (first : Completes strict counter computation good)
    (second : ∀ value middle, counter ≤ middle → good value middle →
      Completes strict middle (next value) also) :
    Completes strict counter (computation >>= next) also := by
  rw [Completes] at first ⊢
  cases run : computation counter with
  | error failure middle =>
      rw [run] at first
      simp only [Bind.bind, EStateM.bind, run]
      exact first
  | ok value middle =>
      rw [run] at first
      have completes := second value middle first.1 first.2
      rw [Completes] at completes
      rw [run_bind run]
      cases runBehind : next value middle with
      | error failure later =>
          rw [runBehind] at completes
          exact completes
      | ok result later =>
          rw [runBehind] at completes
          exact ⟨Nat.le_trans first.1 completes.1, completes.2⟩

theorem map {result : α → β} (completes : Completes strict counter computation good)
    (implies : ∀ value later, good value later → also (result value) later) :
    Completes strict counter (do return result (← computation)) also :=
  completes.bind fun value later _ isGood => pure (implies value later isGood)

/-- What a computation ends with that succeeds. -/
theorem of_ok (completes : Completes strict counter computation good) {value : α}
    (run : computation counter = .ok value later) : counter ≤ later ∧ good value later := by
  rwa [Completes, run] at completes

/-- A permissive computation succeeds. -/
theorem exists_ok (completes : Completes false counter computation good) :
    ∃ value later, computation counter = .ok value later ∧ good value later := by
  rw [Completes] at completes
  cases run : computation counter with
  | ok value later =>
      rw [run] at completes
      exact ⟨value, later, rfl, completes.2⟩
  | error failure later =>
      rw [run] at completes
      cases completes

end Completes

/-! ## New names as links -/

/-- The new names in scope link every name to its new name, as far as it has one.  They have been
handed out by a counter, so the next one is none of them. -/
structure Tracks (free : String → String → Prop) (names : NewNames) (counter : Nat) : Prop where
  bound : ∀ {name newName : String}, names.lookup name = some newName →
    Links.Connect free names name newName
  unbound : ∀ {name : String}, names.lookup name = none → free name undefinedName →
    Links.Connect free names name undefinedName
  handedOut : ∀ {name newName : String}, names.lookup name = some newName →
    ∃ number, number ≤ counter ∧ newName = numbered number

namespace Tracks

variable {names : NewNames} {counter later : Nat}

theorem nil (counter : Nat) : Tracks free [] counter where
  bound := nofun
  unbound _ connect := connect
  handedOut := nofun

theorem mono (tracks : Tracks free names counter) (le : counter ≤ later) :
    Tracks free names later where
  bound := tracks.bound
  unbound := tracks.unbound
  handedOut found := by
    obtain ⟨number, bounded, rfl⟩ := tracks.handedOut found
    exact ⟨number, Nat.le_trans bounded le, rfl⟩

/-- The next number is not in use, so binding its name hides no other new name. -/
theorem cons (tracks : Tracks free names counter) (name : String) :
    Tracks free ((name, numbered (counter + 1)) :: names) (counter + 1) where
  bound := by
    intro other newName found
    by_cases same : other = name
    · subst same
      rw [List.lookup_cons_self, Option.some.injEq] at found
      exact .inl ⟨rfl, found.symm⟩
    · rw [List.lookup_cons, beq_false_of_ne same] at found
      obtain ⟨number, bounded, rfl⟩ := tracks.handedOut found
      refine .inr ⟨same, ?_, tracks.bound found⟩
      rw [Ne, numbered_inj]
      exact Nat.ne_of_lt (Nat.lt_succ_of_le bounded)
  unbound := by
    intro other found connect
    by_cases same : other = name
    · subst same
      rw [List.lookup_cons_self] at found
      cases found
    · rw [List.lookup_cons, beq_false_of_ne same] at found
      exact .inr ⟨same, (numbered_ne_undefinedName _).symm, tracks.unbound found connect⟩
  handedOut := by
    intro other newName found
    by_cases same : other = name
    · subst same
      rw [List.lookup_cons_self, Option.some.injEq] at found
      exact ⟨counter + 1, Nat.le_refl _, found.symm⟩
    · rw [List.lookup_cons, beq_false_of_ne same] at found
      obtain ⟨number, bounded, rfl⟩ := tracks.handedOut found
      exact ⟨number, Nat.le_succ_of_le bounded, rfl⟩

/-- A name is linked with what it is resolved to. -/
theorem resolve_completes (undefined : strict = false → ∀ name, free name undefinedName)
    (tracks : Tracks free names counter) (name : String) :
    Completes strict counter (resolve strict names name) fun newName _ =>
      Links.Connect free names name newName := by
  rw [resolve]
  cases found : names.lookup name with
  | some newName => exact .pure (tracks.bound found)
  | none =>
      cases strict with
      | true => exact rfl
      | false => exact .pure (tracks.unbound found (undefined rfl name))

end Tracks

end Renaming

open Renaming

mutual
/-- **A renamed query corresponds to the query**, and its names are linked as the renamer keeps
them. -/
theorem Query.renameIn_completes (undefined : strict = false → ∀ name, free name undefinedName) :
    (query : Query) → ∀ {names : NewNames} {counter : Nat}, Tracks free names counter →
      Completes strict counter (query.renameIn strict names) fun renamed _ =>
        query.Corresponds free names renamed
  | .reference name, _, _, tracks => by
      rw [Query.renameIn]
      exact (tracks.resolve_completes undefined name).map fun _ _ => .reference
  | .constant value, _, _, _ => by
      rw [Query.renameIn]
      exact .pure (.constant value)
  | .document path, _, _, _ => by
      rw [Query.renameIn]
      exact .pure (.document path)
  | .parenthesized inner, _, _, tracks => by
      rw [Query.renameIn]
      exact (inner.renameIn_completes undefined tracks).map fun _ _ => .parenthesized
  | .pair left right, _, _, tracks => by
      rw [Query.renameIn]
      refine (left.renameIn_completes undefined tracks).bind fun _ _ le left => ?_
      exact (right.renameIn_completes undefined (tracks.mono le)).map fun _ _ => .pair left
  | .step base _ _, _, _, tracks => by
      rw [Query.renameIn]
      exact (base.renameIn_completes undefined tracks).map fun _ _ => .step
  | .element _ body, _, _, tracks => by
      rw [Query.renameIn]
      exact (body.renameIn_completes undefined tracks).map fun _ _ => .element
  | .join left right _ _, _, _, tracks => by
      rw [Query.renameIn]
      refine (left.renameIn_completes undefined tracks).bind fun _ _ le left => ?_
      exact (right.renameIn_completes undefined (tracks.mono le)).map fun _ _ => .join left
  | .letIn bindings body, _, _, tracks => by
      rw [Query.renameIn]
      refine (Binding.renameApart_completes undefined bindings tracks tracks).bind
        fun _ _ _ ⟨bindings, tracks⟩ => ?_
      exact (body.renameIn_completes undefined tracks).map fun _ _ => .letIn bindings
  | .flwr bindings lets condition result, _, _, tracks => by
      rw [Query.renameIn]
      refine (Binding.renameInOrder_completes undefined bindings tracks).bind
        fun _ _ _ ⟨bindings, tracks⟩ => ?_
      refine (Binding.renameInOrder_completes undefined lets tracks).bind
        fun _ _ _ ⟨lets, tracks⟩ => ?_
      refine (Condition.renameIfPresent_completes undefined condition tracks).bind
        fun _ _ le condition => ?_
      exact (result.renameIn_completes undefined (tracks.mono le)).map
        fun _ _ => .flwr bindings lets condition

theorem Condition.renameIn_completes
    (undefined : strict = false → ∀ name, free name undefinedName) :
    (condition : Condition) → ∀ {names : NewNames} {counter : Nat}, Tracks free names counter →
      Completes strict counter (condition.renameIn strict names) fun renamed _ =>
        condition.Corresponds free names renamed
  | .valueEq left right, _, _, tracks => by
      rw [Condition.renameIn]
      refine (left.renameIn_completes undefined tracks).bind fun _ _ le left => ?_
      exact (right.renameIn_completes undefined (tracks.mono le)).map fun _ _ => .valueEq left
  | .identityEq left right, _, _, tracks => by
      rw [Condition.renameIn]
      refine (left.renameIn_completes undefined tracks).bind fun _ _ le left => ?_
      exact (right.renameIn_completes undefined (tracks.mono le)).map fun _ _ => .identityEq left
  | .empty query, _, _, tracks => by
      rw [Condition.renameIn]
      exact (query.renameIn_completes undefined tracks).map fun _ _ => .empty
  | .someSatisfies bindings body, _, _, tracks => by
      rw [Condition.renameIn]
      refine (Binding.renameInOrder_completes undefined bindings tracks).bind
        fun _ _ _ ⟨bindings, tracks⟩ => ?_
      exact (body.renameIn_completes undefined tracks).map fun _ _ => .someSatisfies bindings
  | .parenthesized inner, _, _, tracks => by
      rw [Condition.renameIn]
      exact (inner.renameIn_completes undefined tracks).map fun _ _ => .parenthesized
  | .and left right, _, _, tracks => by
      rw [Condition.renameIn]
      refine (left.renameIn_completes undefined tracks).bind fun _ _ le left => ?_
      exact (right.renameIn_completes undefined (tracks.mono le)).map fun _ _ => .and left
  | .or left right, _, _, tracks => by
      rw [Condition.renameIn]
      refine (left.renameIn_completes undefined tracks).bind fun _ _ le left => ?_
      exact (right.renameIn_completes undefined (tracks.mono le)).map fun _ _ => .or left
  | .not inner, _, _, tracks => by
      rw [Condition.renameIn]
      exact (inner.renameIn_completes undefined tracks).map fun _ _ => .not

theorem Condition.renameIfPresent_completes
    (undefined : strict = false → ∀ name, free name undefinedName) :
    (condition : Option Condition) → ∀ {names : NewNames} {counter : Nat},
      Tracks free names counter →
        Completes strict counter (Condition.renameIfPresent strict condition names)
          fun renamed _ => Condition.CorrespondIfPresent free names condition renamed
  | none, _, _, _ => by
      rw [Condition.renameIfPresent]
      exact .pure .none
  | some condition, _, _, tracks => by
      rw [Condition.renameIfPresent]
      exact (condition.renameIn_completes undefined tracks).map fun _ _ => .some

/-- A renamed clause corresponds to the clause, and the links behind it are the new names in
scope. -/
theorem Binding.renameInOrder_completes
    (undefined : strict = false → ∀ name, free name undefinedName) :
    (bindings : List Binding) → ∀ {names : NewNames} {counter : Nat}, Tracks free names counter →
      Completes strict counter (Binding.renameInOrder strict bindings names) fun result later =>
        Binding.CorrespondInOrder free names bindings result.1 result.2 ∧
          Tracks free result.2 later
  | [], _, _, tracks => by
      rw [Binding.renameInOrder]
      exact .pure ⟨.nil, tracks⟩
  | ⟨name, source⟩ :: rest, _, _, tracks => by
      rw [Binding.renameInOrder]
      refine (source.renameIn_completes undefined tracks).bind fun _ _ le source => ?_
      refine Completes.fresh.bind fun _ _ _ ⟨next, after⟩ => ?_
      subst next after
      exact (Binding.renameInOrder_completes undefined rest ((tracks.mono le).cons name)).map
        fun _ _ ⟨rest, tracks⟩ => ⟨.cons source rest, tracks⟩

theorem Binding.renameApart_completes
    (undefined : strict = false → ∀ name, free name undefinedName) :
    (bindings : List Binding) → ∀ {outer inner : NewNames} {counter : Nat},
      Tracks free outer counter → Tracks free inner counter →
        Completes strict counter (Binding.renameApart strict bindings outer inner)
          fun result later =>
            Binding.CorrespondApart free outer inner bindings result.1 result.2 ∧
              Tracks free result.2 later
  | [], _, _, _, _, tracks => by
      rw [Binding.renameApart]
      exact .pure ⟨.nil, tracks⟩
  | ⟨name, source⟩ :: rest, _, _, _, outer, tracks => by
      rw [Binding.renameApart]
      refine (source.renameIn_completes undefined outer).bind fun _ _ le source => ?_
      refine Completes.fresh.bind fun _ _ later ⟨next, after⟩ => ?_
      subst next after
      exact (Binding.renameApart_completes undefined rest ((outer.mono le).mono later)
        ((tracks.mono le).cons name)).map fun _ _ ⟨rest, tracks⟩ => ⟨.cons source rest, tracks⟩
end

/-! ## Whole queries -/

/-- A query that has been renamed corresponds to the query. -/
theorem Query.corresponds_of_renaming (undefined : strict = false → ∀ name, free name undefinedName)
    {query renamed : Query} {counter later : Nat}
    (run : query.renaming strict counter = .ok renamed later) :
    query.Corresponds free [] renamed :=
  ((query.renameIn_completes undefined (.nil counter)).of_ok run).2

/-- Every free name corresponds to the name that stands for all of them. -/
def Renaming.Undefines (_ other : String) : Prop := other = undefinedName

theorem Renaming.undefines_undefinedName (name : String) : Undefines name undefinedName := rfl

/-- **Permissive renaming succeeds**, from any counter. -/
theorem Query.exists_renaming (query : Query) (counter : Nat) :
    ∃ renamed later, query.renaming false counter = .ok renamed later ∧
      query.Corresponds Undefines [] renamed :=
  (query.renameIn_completes (fun _ => undefines_undefinedName) (.nil counter)).exists_ok

/-- Renaming a query is renaming it permissively from `v1` on. -/
theorem Query.run_rename (query : Query) :
    ∃ later, query.renaming false 0 = .ok query.rename later := by
  obtain ⟨renamed, later, run, _⟩ := query.exists_renaming 0
  rw [rename, EStateM.run, run]
  exact ⟨later, rfl⟩

theorem Query.corresponds_rename (query : Query) : query.Corresponds Undefines [] query.rename := by
  obtain ⟨later, run⟩ := query.run_rename
  exact Query.corresponds_of_renaming (fun _ => undefines_undefinedName) run

end TreeQuery
