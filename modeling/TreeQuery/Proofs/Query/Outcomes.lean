import TreeQuery.Processor
import TreeQuery.Proofs.Query.Evaluator

/-!
# Outcomes of evaluators

An evaluator that has not been used ends as the evaluation over its library does, with every
document under its title (`Session.outcome_evaluate`).  So what is known of evaluations is known
of evaluators, if what is done to a query does not depend on the names of its documents.
-/

set_option autoImplicit false

namespace TreeQuery

/-- What an evaluation yields that starts without constructed nodes. -/
def Evaluation.outcome (evaluation : Evaluation (List Item)) : Except Failure Outcome :=
  match evaluation.run .empty with
  | .ok items constructed => .ok ⟨items, constructed⟩
  | .error failure _ => .error failure

theorem Evaluation.outcome_eq_ok {evaluation : Evaluation (List Item)} {outcome : Outcome} :
    evaluation.outcome = .ok outcome ↔
      evaluation .empty = .ok outcome.items outcome.constructed := by
  rw [Evaluation.outcome, EStateM.run]
  cases evaluation .empty with
  | ok items constructed =>
      simp only [Except.ok.injEq, EStateM.Result.ok.injEq]
      constructor
      · rintro rfl
        exact ⟨rfl, rfl⟩
      · rintro ⟨rfl, rfl⟩
        rfl
  | error failure constructed => simp

namespace Session

variable {session : Session (List Item)} {evaluation : Evaluation (List Item)}

/-- A computation of a new evaluator that follows an evaluation has its outcome. -/
theorem Follows.outcome_eq {library : Library} {known : Evaluator → List Item → Prop}
    (follows : Follows library known .new session evaluation) :
    session.outcome = evaluation.outcome := by
  rw [Session.outcome, Evaluation.outcome, EStateM.run, EStateM.run]
  cases follows with
  | ok run evaluated =>
      rw [run]
      exact evaluated ▸ rfl
  | error run evaluated =>
      rw [run]
      exact evaluated ▸ rfl

variable (resolver : Resolver)

/-- **A new evaluator answers a query as it is evaluated with the titles of its documents.** -/
theorem outcome_evaluate (query : Query) : (evaluate resolver query []).outcome =
    ((query.titled resolver.title).evaluate resolver.library []).outcome :=
  (evaluate_follows query rfl .nil).outcome_eq

/-- A document path is answered like the query that it is. -/
theorem outcome_documentPath (path : DocumentPath) : (documentPath resolver path).outcome =
    (Evaluation.documentPath resolver.library (path.titled resolver.title)).outcome :=
  (Follows.documentPath rfl path).outcome_eq

end Session

end TreeQuery
