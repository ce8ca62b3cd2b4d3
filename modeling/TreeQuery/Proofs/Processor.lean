import TreeQuery.Proofs.JoinPlan.Congruence
import TreeQuery.Proofs.JoinPlan.Titles
import TreeQuery.Proofs.Query.Documents
import TreeQuery.Proofs.Query.Renaming

/-!
# Optimizing preserves results

An optimized query is a query that has been renamed and in which `for` expressions have been
replaced by joins.  If all documents of a query can be read and the query tolerates joins,
then evaluating it after optimizing succeeds when evaluating it as it is does, and the two
sequences are written the same in every layout (`Processor.evaluateOptimized_sound`).  Several
names may stand for one document: neither renaming nor optimizing looks at names of documents, so
both queries can be evaluated with titles for names.

That the query tolerates joins cannot be dropped: a path that goes on from the copies of one
node meets each of them, and what it reaches is there as often
(`Processor.evaluateOptimized_repeats`).
-/

set_option autoImplicit false

namespace TreeQuery

open Evaluation Renaming JoinPlan

/-! ## Renaming and optimizing -/

variable {library : Library}

/-- The permissive renamer prepares every query. -/
theorem Query.prepare_permissive (query : Query) : query.prepare false =
    .ok ⟨query.rename, query.rename.optimize.query, query.rename.optimize.replaced⟩ := by
  obtain ⟨later, run⟩ := query.run_rename
  rw [Query.prepare, Query.renameFirst, EStateM.run, run]
  rfl

/-- **A query that tolerates joins ends like its optimized form**, evaluated without
constructed nodes and without variables, up to the names of references that nothing binds. -/
theorem Query.optimize_simulates (documents : library.WellFormed)
    (blames : library.BlamesDocuments) (query : Query) (resolves : library.Resolves query.documents)
    (tolerates : query.toleratesJoins = true) :
    ∃ level : Level, level ≠ .gathered ∧
      Simulates (World.identity documents .empty) (undefining (query.evaluate library []))
        (query.rename.optimize.query.evaluate library []) level.Holds := by
  have means := query.corresponds_rename.evaluate_eq blames .nil
  rw [Query.toleratesJoins] at tolerates
  split at tolerates
  · rename_i level levelled
    refine ⟨level, of_decide_eq_true tolerates, ?_⟩
    rw [← means, Query.optimize_query]
    exact query.rename.replace_simulates (query.documents_rename ▸ resolves)
      Replacements.planned_joins levelled .nil
  · exact absurd tolerates Bool.false_ne_true

/-! ## Processors -/

section

variable {resolver : Resolver} {source : String} {query : Query}
variable (parsed : Query.parse source = .ok query)
include parsed

/-- What a processor evaluates that does not optimize. -/
theorem Processor.evaluateSource_plain : Processor.evaluateSource ⟨resolver, .plain⟩ source =
    (Session.evaluate resolver query []).outcome := by
  rw [Processor.evaluateSource, parsed]
  rfl

/-- What a processor evaluates that optimizes but is not strict. -/
theorem Processor.evaluateOptimized_plain :
    Processor.evaluateOptimized ⟨resolver, .plain⟩ source =
      (Session.evaluate resolver query.rename.optimize.query []).outcome := by
  rw [Processor.evaluateOptimized, Processor.optimize, parsed]
  show (do
    let optimization ← query.prepare false
    Processor.evaluate ⟨resolver, .plain⟩ optimization.optimized) = _
  rw [query.prepare_permissive]
  rfl

end

/-- The items of an outcome in a layout. -/
def Outcome.write (library : Library) (layout : Layout) (outcome : Outcome) : String :=
  Node.serialize (library.view outcome.constructed) layout outcome.items

/-- Sequences with alike items are written the same. -/
theorem serialize_alike {left right : View Home} (formedLeft : left.WellFormed)
    (formedRight : right.WellFormed) {items others : List Item}
    (alike : List.Forall₂ (Node.Alike left right) items others) (layout : Layout) :
    Node.serialize right layout others = Node.serialize left layout items := by
  rw [Node.serialize, Node.serialize, map_eq_of_forall₂ alike
    fun alike => alike.content_eq formedLeft formedRight]

/-- Where documents are found under their names they are found under their titles. -/
theorem Collection.resolves_titled (collection : Collection) (table : List (String × Holding))
    {query : Query} (resolves : (collection.resolver table).library.Resolves query.documents) :
    let resolver := collection.resolver table
    resolver.library.Resolves (query.titled resolver.title).documents := by
  intro resolver
  rw [query.documents_titled]
  refine List.forall_mem_map.mpr fun name listed => ?_
  rw [collection.library_title table name]
  exact resolves name listed

/-- **Optimizing preserves results**, whatever texts and documents stand under names, one document
under several names included.  If a text is a query all of whose documents can be read and which
tolerates joins, and a processor that is not strict evaluates it as it is, then it also evaluates
the optimized query, and in every layout the two results are written the same. -/
theorem Processor.evaluateOptimized_sound (creations : List Creation)
    (table : List (String × Holding)) (source : String) (query : Query)
    (parsed : Query.parse source = .ok query) (tolerates : query.toleratesJoins = true) :
    let resolver := (Collection.empty.createAll creations).resolver table
    resolver.library.Resolves query.documents →
      ∀ outcome, Processor.evaluateSource ⟨resolver, .plain⟩ source = .ok outcome →
        ∃ optimized, Processor.evaluateOptimized ⟨resolver, .plain⟩ source = .ok optimized ∧
          ∀ layout : Layout, optimized.write resolver.library layout =
            outcome.write resolver.library layout := by
  intro resolver resolves outcome plain
  have documents : resolver.library.WellFormed :=
    ((Collection.Reachable.empty.createAll creations).shelf table).wellFormed
  have blames : resolver.library.BlamesDocuments := Collection.blamesDocuments_shelf _ table
  obtain ⟨level, ordered, simulates⟩ := (query.titled resolver.title).optimize_simulates documents
    blames (Collection.resolves_titled _ table resolves)
    ((query.toleratesJoins_titled resolver.title).trans tolerates)
  rw [Processor.evaluateSource_plain parsed, Session.outcome_evaluate, Evaluation.outcome_eq_ok]
    at plain
  have renamed : undefining ((query.titled resolver.title).evaluate resolver.library []) .empty =
      .ok outcome.items outcome.constructed := by
    rw [undefining, EStateM.adaptExcept, plain]
  rw [Processor.evaluateOptimized_plain parsed, Session.outcome_evaluate, ← Query.optimize_titled,
    ← Query.rename_titled]
  cases simulates with
  | error run _ => cases renamed.symm.trans run
  | @ok items others world run otherRun _ holds =>
      obtain ⟨rfl, same⟩ := EStateM.Result.ok.inj (renamed.symm.trans run)
      refine ⟨⟨others, world.right⟩, Evaluation.outcome_eq_ok.mpr otherRun, fun layout => ?_⟩
      rw [Outcome.write, Outcome.write, same]
      exact serialize_alike world.viewLeft_wellFormed world.viewRight_wellFormed
        (holds.copied ordered) layout

theorem exists_of_map_eq_ok {α β ε : Type} {f : α → β} {result : Except ε α} {value : β}
    (same : result.map f = .ok value) : ∃ given, result = .ok given ∧ f given = value := by
  cases result with
  | error _ => cases same
  | ok given => exact ⟨given, rfl, Except.ok.inj same⟩

/-- Elements around the pairs of a join, and a path into them.  One document stands under the two
names of the query. -/
theorem Processor.evaluateOptimized_sound_pathIntoPairs :
    let creations : List Creation := [.build none [.element "a" [] [.text "1"]]]
    let table : List (String × Holding) := [("f", .document 0), ("g", .document 0)]
    let resolver := (Collection.empty.createAll creations).resolver table
    let source := "(for $x in doc(\"f\")/a, $y in doc(\"g\")/a return <p>\x7b$x, $y\x7d</p>)/a"
    ∃ outcome optimized : Outcome,
      Processor.evaluateSource ⟨resolver, .plain⟩ source = .ok outcome ∧
      outcome.write resolver.library ⟨false, false⟩ = "<a>1</a>\n<a>1</a>\n" ∧
      Processor.evaluateOptimized ⟨resolver, .plain⟩ source = .ok optimized ∧
      ∀ layout : Layout,
        optimized.write resolver.library layout = outcome.write resolver.library layout := by
  intro creations table resolver source
  have checked : (Query.parse source).map (fun query => (query.documents, query.toleratesJoins,
      (Session.evaluate resolver query []).outcome.map
        (·.write resolver.library ⟨false, false⟩))) =
      .ok (["f", "g"], true, .ok "<a>1</a>\n<a>1</a>\n") := by decide +kernel
  obtain ⟨query, parsed, checked⟩ := exists_of_map_eq_ok checked
  simp only [Prod.mk.injEq] at checked
  obtain ⟨named, tolerates, written⟩ := checked
  obtain ⟨outcome, plain, written⟩ := exists_of_map_eq_ok written
  rw [← Processor.evaluateSource_plain parsed] at plain
  have resolves : resolver.library.Resolves query.documents := named ▸ by decide
  obtain ⟨optimized, run, same⟩ := Processor.evaluateOptimized_sound creations table source query
    parsed tolerates resolves outcome plain
  exact ⟨outcome, optimized, plain, written, run, same⟩

/-- A path goes on from the copies of one node, and reaches as many copies. -/
theorem Processor.evaluateOptimized_repeats :
    let resolver := Collection.empty.resolver
      [("f", .text "<r><a><k>1</k></a></r>"), ("g", .text "<s><b/><b/></s>")]
    let source := "(for $x in doc(\"f\")/r/a, $y in doc(\"g\")/s/b return $x)/k"
    let written := fun result : Except Failure Outcome =>
      result.map (·.write resolver.library ⟨false, false⟩)
    (Query.parse source).map Query.documents = .ok ["f", "g"] ∧
      resolver.library.Resolves ["f", "g"] ∧
      written (Processor.evaluateSource ⟨resolver, .plain⟩ source) = .ok "<k>1</k>\n" ∧
      written (Processor.evaluateOptimized ⟨resolver, .plain⟩ source) =
        .ok "<k>1</k>\n<k>1</k>\n" := by
  refine ⟨?_, ?_, ?_, ?_⟩ <;> decide +kernel

end TreeQuery
