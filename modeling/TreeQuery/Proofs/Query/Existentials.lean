import TreeQuery.Proofs.Query.Evaluator

/-!
# Existential conditions and `for` expressions

A `some` condition and a `for` expression over the same bindings visit the same scopes in the
same order.  The condition stops at the first scope in which its body holds; the expression goes
on behind it, evaluates its result there and visits the scopes that are left, with an evaluator
that has constructed more and with sources that may now fail.

None of that has to be compared.  Up to the first scope in which the body holds, an expression
with the body for its `where` clause constructs nothing of its own, so that both are at the same
evaluator throughout; and in that scope the condition is decided, while the expression can only
fail or yield at least what its result yields there (`Session.Detects`).  This is kept by visiting
the members of a list (`Session.Detects.any`) and, by induction on the bindings, the tuples of a
clause (`Session.Detects.anyTuple`).
-/

set_option autoImplicit false

namespace TreeQuery.Session

variable {α β : Type}

/-! ## Tests and what they detect -/

/-- How a test ends beside a computation that yields items: it says no where nothing is yielded
and with the same evaluator, and it fails where and as the computation does, unless it has said
yes before. -/
inductive DetectsAt : EStateM.Result Failure Evaluator Bool →
    EStateM.Result Failure Evaluator (List β) → Prop where
  | absent (later : Evaluator) : DetectsAt (.ok false later) (.ok [] later)
  | present (earlier later : Evaluator) {items : List β} (some : items ≠ []) :
      DetectsAt (.ok true earlier) (.ok items later)
  | failing (failure : Failure) (later : Evaluator) :
      DetectsAt (.error failure later) (.error failure later)
  | failingBehind (earlier : Evaluator) (failure : Failure) (later : Evaluator) :
      DetectsAt (.ok true earlier) (.error failure later)

/-- A test detects, from every evaluator, whether a computation yields items. -/
def Detects (test : Session Bool) (yielding : Session (List β)) : Prop :=
  ∀ evaluator, DetectsAt (test evaluator) (yielding evaluator)

namespace Detects

/-- A computation that is made only if a test says yes, and yields items if it is made, is
detected by the test. -/
theorem guarded (test : Session Bool) {yielding : Session (List β)}
    (yields : ∀ before items later, yielding before = .ok items later → items ≠ []) :
    Detects test (do if ← test then yielding else return []) := by
  intro evaluator
  cases tested : test evaluator with
  | error failure later =>
      rw [bind_error tested]
      exact .failing failure later
  | ok answer middle =>
      rw [bind_ok tested]
      cases answer with
      | false => exact .absent middle
      | true =>
          rw [if_pos rfl]
          cases run : yielding middle with
          | ok items later => exact .present _ _ (yields middle items later run)
          | error failure later => exact .failingBehind _ _ _

/-- A computation that follows another one in both. -/
theorem bind (first : Session α) {test : α → Session Bool} {yielding : α → Session (List β)}
    (detects : ∀ value, Detects (test value) (yielding value)) :
    Detects (first >>= test) (first >>= yielding) := by
  intro evaluator
  cases run : first evaluator with
  | ok value middle =>
      rw [bind_ok run, bind_ok run]
      exact detects value middle
  | error failure later =>
      rw [bind_error run, bind_error run]
      exact .failing failure later

/-- A test that is followed by another one only if it says no, beside two computations that follow
each other in any case. -/
theorem orElse {test other : Session Bool} {yielding further : Session (List β)}
    (detects : Detects test yielding) (otherwise : Detects other further) :
    Detects (do
      if ← test then return true
      other) (do
      let found ← yielding
      let others ← further
      return found ++ others) := by
  intro evaluator
  have visited := detects evaluator
  simp only [Bind.bind, EStateM.bind]
  generalize test evaluator = tested at visited
  generalize yielding evaluator = yielded at visited
  cases visited with
  | absent later =>
      -- nothing has been yielded, so the others start from the same evaluator
      have others := otherwise later
      simp only [Bool.false_eq_true, if_false, List.nil_append]
      cases run : further later with
      | ok items last =>
          rw [run] at others
          exact others
      | error failure last =>
          rw [run] at others
          exact others
  | @present earlier later items some =>
      -- what the others yield cannot make the items fewer
      simp only [if_true]
      cases further later with
      | ok others last =>
          exact .present earlier last fun empty => some (List.append_eq_nil_iff.mp empty).1
      | error failure last => exact .failingBehind earlier failure last
  | failing failure later => exact .failing failure later
  | failingBehind earlier failure later => exact .failingBehind earlier failure later

/-- Visiting the members of a list until a visit says yes detects whether visiting all of them
yields items. -/
theorem any {test : α → Session Bool} {yielding : α → Session (List β)}
    (detects : ∀ item, Detects (test item) (yielding item)) (items : List α) :
    Detects (Session.any test items) (collect yielding items) := by
  induction items with
  | nil => exact fun evaluator => .absent evaluator
  | cons item rest ih =>
      rw [Session.any, collect]
      exact (detects item).orElse ih

/-- **Visiting the tuples of a clause until a visit says yes detects whether visiting all of them
yields items.** -/
theorem anyTuple (resolver : Resolver) {test : Scope → Session Bool}
    {yielding : Scope → Session (List Item)}
    (detects : ∀ scope, Detects (test scope) (yielding scope))
    (bindings : List Binding) (scope : Scope) :
    Detects (Session.anyTuple resolver bindings scope test)
      (collectTuples resolver bindings scope yielding) := by
  induction bindings generalizing scope with
  | nil =>
      rw [Session.anyTuple, collectTuples]
      exact detects scope
  | cons binding rest ih =>
      obtain ⟨name, source⟩ := binding
      rw [Session.anyTuple, collectTuples]
      exact bind _ fun items => any (fun item => ih ((name, [item]) :: scope)) items

end Detects

/-- A constant that can be evaluated yields a text. -/
theorem evaluate_constant_ne_nil (resolver : Resolver) (value : String) (scope : Scope)
    (before : Evaluator) (items : List Item) (later : Evaluator)
    (run : evaluate resolver (.constant value) scope before = .ok items later) : items ≠ [] := by
  rw [evaluate] at run
  cases constructed : (perform fun _ => Evaluation.constructText value) before with
  | ok item middle =>
      rw [bind_ok constructed] at run
      obtain ⟨rfl, _⟩ := EStateM.Result.ok.inj run
      exact List.cons_ne_nil _ _
  | error failure middle =>
      rw [bind_error constructed] at run
      cases run

/-- A `some` condition detects whether the `for` expression over its bindings yields items that
has its body for a condition and a constant for a result. -/
theorem detects_someSatisfies (resolver : Resolver) (bindings : List Binding)
    (condition : Condition) (value : String) (scope : Scope) :
    Detects (holds resolver (.someSatisfies bindings condition) scope)
      (evaluate resolver (.flwr bindings [] (some condition) (.constant value)) scope) := by
  rw [holds, evaluate]
  refine .anyTuple resolver (fun scope => ?_) bindings scope
  rw [bindInOrder, holdsIfPresent]
  exact .guarded _ (evaluate_constant_ne_nil resolver value scope)

/-! ## Conditions and expressions -/

/-- **An existential condition holds exactly where the `for` expression over its bindings yields
something.**  In every scope and from every evaluator: if the expression succeeds, then so does the
condition, and it holds exactly if there are items; if the condition does not hold, then the
expression yields nothing; if it holds, then the expression fails or yields items; and where the
condition fails, the expression fails as well and in the same way. -/
theorem holds_someSatisfies (resolver : Resolver) (bindings : List Binding)
    (condition : Condition) (value : String) (scope : Scope) (evaluator : Evaluator) :
    let tested := holds resolver (.someSatisfies bindings condition) scope evaluator
    let collected := evaluate resolver (.flwr bindings [] (some condition) (.constant value)) scope
      evaluator
    (∀ items later, collected = .ok items later →
      ∃ after, tested = .ok (decide (items ≠ [])) after) ∧
    (∀ after, tested = .ok false after → collected = .ok [] after) ∧
    (∀ after, tested = .ok true after →
      (∃ failure later, collected = .error failure later) ∨
        ∃ items later, collected = .ok items later ∧ items ≠ []) ∧
    ∀ failure after, tested = .error failure after → collected = .error failure after := by
  intro tested collected
  have detects : DetectsAt tested collected :=
    detects_someSatisfies resolver bindings condition value scope evaluator
  clear_value tested collected
  cases detects with
  | absent later => simp
  | @present earlier later items some => simp [some]
  | failing failure later => simp
  | failingBehind earlier failure later => simp

/-- The second of two texts meets the condition, behind a first one that does not. -/
theorem holds_someSatisfies_secondText :
    let resolver : Resolver := ⟨id, fun name => .error (.unavailable name .unknown)⟩
    let bindings : List Binding := [⟨"a", .pair (.constant "p") (.constant "q")⟩]
    let condition : Condition := .valueEq (.reference "a") (.constant "q")
    ∃ item later, evaluate resolver (.flwr bindings [] (some condition) (.constant "r")) [] .new =
        .ok [item] later ∧
      ∃ after, holds resolver (.someSatisfies bindings condition) [] .new = .ok true after := by
  intro resolver bindings condition
  have run : evaluate resolver (.flwr bindings [] (some condition) (.constant "r")) [] .new =
      .ok [⟨.constructed, 3⟩]
        ⟨[], ((Arena.empty.createText "p").createText "q").createText "r"⟩ := rfl
  exact ⟨_, _, run, (holds_someSatisfies resolver bindings condition "r" [] .new).1 _ _ run⟩

end TreeQuery.Session
