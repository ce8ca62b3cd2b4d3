import TreeQuery.Proofs.Grammar.Image
import TreeQuery.Proofs.Grammar.Whole
import TreeQuery.Proofs.JoinPlan.Printable
import TreeQuery.Proofs.Processor
import TreeQuery.Proofs.Query.Parentheses
import TreeQuery.Proofs.Query.Regrouping

/-!
# Printed optimized queries

The query that optimizing ends with can be printed, and what is printed is a query that means
the same.  It is not the same tree: reading makes parentheses explicit and takes the steps of a
path off another as steps of one path, so nodes are filtered for duplicates at other points.
-/

set_option autoImplicit false

namespace TreeQuery

open Grammar

variable {library : Library}

/-! ## Steps off other paths -/

/-- A query that is printable up to steps off other paths is read back regrouped, with its
parentheses explicit. -/
theorem Query.parse_pretty_regrouped {binder : String → Bool} {query : Query}
    (printable : query.isPrintableWith binder anyBase = true) :
    Query.parse query.pretty = .ok query.regrouped.explicit :=
  parse_of_laidOut (query.isPrintable_regrouped printable)
    (query.tokens_regrouped ▸ query.laidOut_pretty printable)

/-- What a printed query is read back as means what the query means. -/
theorem Query.evaluate_explicit_regrouped (query : Query) (scope : Scope) :
    query.regrouped.explicit.evaluate library scope = query.evaluate library scope :=
  calc query.regrouped.explicit.evaluate library scope
    _ = query.regrouped.explicit.skeleton.evaluate library scope :=
        (query.regrouped.explicit.evaluate_skeleton library scope).symm
    _ = query.regrouped.skeleton.evaluate library scope := by rw [query.regrouped.skeleton_explicit]
    _ = query.regrouped.evaluate library scope := query.regrouped.evaluate_skeleton library scope
    _ = query.evaluate library scope := query.evaluate_regrouped library scope

/-- A new evaluator answers what a printed query is read back as like the query, whatever its names
stand for. -/
theorem Session.outcome_explicit_regrouped (resolver : Resolver) (query : Query) :
    (Session.evaluate resolver query.regrouped.explicit []).outcome =
      (Session.evaluate resolver query []).outcome := by
  rw [Session.outcome_evaluate, Session.outcome_evaluate, ← Query.explicit_titled,
    ← Query.regrouped_titled, Query.evaluate_explicit_regrouped]

/-! ## Optimizing -/

/-- Renaming leaves a query printable, and its variables could be tags. -/
theorem Query.isPrintable_of_renameFirst {binder : String → Bool} {base : Query → Bool}
    {strict : Bool} {query renamed : Query} (printable : query.isPrintableWith binder base = true)
    (run : query.renameFirst strict = .ok renamed) :
    renamed.isPrintableWith isTagName anyBase = true := by
  rw [Query.renameFirst, EStateM.run] at run
  cases ran : query.renaming strict 0 with
  | ok other later =>
      rw [ran] at run
      obtain rfl := Except.ok.inj run
      exact Query.isPrintable_of_renaming printable ran
  | error failure later =>
      rw [ran] at run
      cases run

/-- **The optimized query of a text is printable** up to steps off other paths. -/
theorem Processor.isPrintable_optimize {processor : Processor} {source : String}
    {optimization : Optimization} (run : processor.optimize source = .ok optimization) :
    optimization.optimized.isPrintableWith isTagName anyBase = true := by
  rw [optimize] at run
  obtain ⟨query, parsed, run⟩ := bind_eq_ok run
  rw [Query.prepare] at run
  obtain ⟨renamed, renames, run⟩ := bind_eq_ok run
  obtain rfl := Except.ok.inj run
  have printable := Query.isPrintable_of_parse parsed
  exact renamed.isPrintable_optimize (Query.isPrintable_of_renameFirst printable renames)

/-- A processor that is not strict optimizes every query. -/
theorem Processor.exists_optimize {processor : Processor}
    (permissive : processor.treatment.strict = false) {source : String} {query : Query}
    (parsed : Query.parse source = .ok query) :
    ∃ optimization, processor.optimize source = .ok optimization := by
  have run : processor.optimize source = query.prepare false := by
    rw [optimize, parsed, permissive]
    rfl
  exact ⟨_, run.trans query.prepare_permissive⟩

/-- **The printed optimized query is the optimized query.**  A processor that is not strict
optimizes every text that is a query, and the optimized query is printed as a query.  A new
evaluator gives both one outcome, whatever names stand for: any texts and any documents of a
program (`Collection.resolver`), also one document under several names.  Both fail with the same
failure, or end with the same items and the same constructed nodes. -/
theorem Processor.evaluate_printed (processor : Processor)
    (permissive : processor.treatment.strict = false) (source : String) (query : Query)
    (parsed : Query.parse source = .ok query) :
    ∃ optimization, processor.optimize source = .ok optimization ∧
      ∃ printed, Query.parse optimization.optimized.pretty = .ok printed ∧
        ∀ resolver : Resolver, (Session.evaluate resolver printed []).outcome =
          (Session.evaluate resolver optimization.optimized []).outcome := by
  obtain ⟨optimization, run⟩ := Processor.exists_optimize permissive parsed
  refine ⟨optimization, run, _,
    Query.parse_pretty_regrouped (Processor.isPrintable_optimize run), fun resolver => ?_⟩
  exact Session.outcome_explicit_regrouped resolver optimization.optimized

/-- A join on keys: the steps off the fields of a tuple are read back as steps of one path.  One
document stands under both names, so nodes that are reached from either are identical. -/
theorem Processor.evaluate_printed_joinedKeys :
    let creations : List Creation :=
      [.load none "<r><a><k>1</k><k>2</k></a><b><k>2</k></b><a><k>2</k></a></r>"]
    let table : List (String × Holding) := [("f", .document 0), ("g", .document 0)]
    let resolver := (Collection.empty.createAll creations).resolver table
    let processor : Processor := ⟨resolver, .plain⟩
    let source :=
      "for $a in doc(\"f\")/r/a, $b in doc(\"g\")/r/b where $a/k = $b/k return ($a/k, $b)"
    ∃ optimization, processor.optimize source = .ok optimization ∧ optimization.replaced = 1 ∧
      ∃ printed, Query.parse optimization.optimized.pretty = .ok printed ∧
        (Session.evaluate resolver printed []).outcome =
          (Session.evaluate resolver optimization.optimized []).outcome ∧
        (Session.evaluate resolver optimization.optimized []).outcome.map (·.items.length) =
          .ok 5 := by
  intro creations table resolver processor source
  have checked : (processor.optimize source).map (fun optimization => (optimization.replaced,
      (Session.evaluate resolver optimization.optimized []).outcome.map (·.items.length))) =
      .ok (1, .ok 5) := by decide +kernel
  have isQuery : (Query.parse source).map (fun _ => ()) = .ok () := by decide +kernel
  obtain ⟨query, parsed, _⟩ := exists_of_map_eq_ok isQuery
  obtain ⟨optimization, run, printed, read, same⟩ :=
    Processor.evaluate_printed processor rfl source query parsed
  rw [run] at checked
  obtain ⟨replaced, items⟩ := Prod.mk.inj (Except.ok.inj checked)
  exact ⟨optimization, run, replaced, printed, read, same resolver, items⟩

end TreeQuery
