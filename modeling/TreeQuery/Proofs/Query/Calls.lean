import TreeQuery.Proofs.Query.Evaluator

/-!
# Calls leave alone what is there

A call of an evaluator, whether it succeeds or fails, changes no document that has been
kept and no node that has been constructed before; it only keeps more documents and
constructs more nodes (`Evaluator.Extends`).  So it is with any number of calls, and a
document path that has been evaluated once yields the same nodes ever after
(`Evaluator.undisturbed`).
-/

set_option autoImplicit false

namespace TreeQuery

open Evaluation

variable {α : Type} {resolver library : Library} {title : String → String}

/-! ## Records -/

/-- Records to which others have been added are a prefix of what they have become. -/
theorem Arena.Extends.isPrefix {before after : Arena} (extend : before.Extends after) :
    before.records.toList <+: after.records.toList := by
  refine List.prefix_iff_getElem.mpr ⟨extend.size_le, fun slot inside => ?_⟩
  have still : slot < after.records.size := Nat.lt_of_lt_of_le inside extend.size_le
  have same : after.record slot = before.record slot := extend.record_eq inside
  rw [Arena.record, Arena.record, ← Array.getElem_eq_getD, ← Array.getElem_eq_getD] at same
  exact same.symm

/-! ## Single calls -/

namespace Session.Follows

variable {evaluator : Evaluator} {known : Evaluator → α → Prop} {session : Session α}
variable {evaluation : Evaluation α}

theorem grows_after (follows : Follows resolver known evaluator session evaluation) :
    evaluator.Grows resolver (evaluator.after session) := by
  rw [Evaluator.after]
  cases follows with
  | ok run _ grows | error run _ grows =>
      rw [run]
      exact grows

theorem develops_after (follows : Follows resolver known evaluator session evaluation)
    (constructs : Constructs evaluation) :
    evaluator.constructed.Develops (evaluator.after session).constructed := by
  have develops := constructs evaluator.constructed
  rw [Evaluator.after]
  cases follows with
  | ok run evaluated | error run evaluated =>
      rw [evaluated] at develops
      rw [run]
      exact develops

end Session.Follows

/-- What a call is evaluated as. -/
def Call.evaluation (title : String → String) (library : Library) :
    Call → Evaluation (List Item)
  | .query asked => (asked.titled title).evaluate library []
  | .path asked => documentPath library (asked.titled title)

/-- An evaluator answers a call as it is evaluated over the standing documents. -/
theorem Call.follows (call : Call) (title : String → String) (resolver : Library)
    (evaluator : Evaluator) :
    Session.Follows resolver Evaluator.Knows evaluator (call.session ⟨title, resolver⟩)
      (call.evaluation title (evaluator.standing resolver)) := by
  cases call with
  | query asked => exact Session.evaluate_follows asked rfl .nil
  | path asked => exact .documentPath rfl asked

theorem Call.constructs (call : Call) (library : Library) :
    Constructs (call.evaluation title library) := by
  cases call with
  | query asked => exact (asked.titled title).evaluate_constructs library []
  | path asked => exact constructs_documentPath (asked.titled title)

/-! ## Several calls -/

namespace Evaluator

variable {before middle after : Evaluator}

/-- Documents may have been kept and nodes constructed, and nothing else has happened. -/
structure Extends (before after : Evaluator) : Prop where
  kept : ∀ {name : String} {document : Arena}, before.document? name = some document →
    after.document? name = some document
  develops : before.constructed.Develops after.constructed

theorem Extends.refl (evaluator : Evaluator) : evaluator.Extends evaluator := ⟨id, .refl⟩

theorem Extends.trans (first : before.Extends middle) (second : middle.Extends after) :
    before.Extends after :=
  ⟨second.kept ∘ first.kept, first.develops.trans second.develops⟩

/-- A call, successful or not, leaves alone what is there. -/
theorem extends_call (evaluator : Evaluator) (title : String → String) (resolver : Library)
    (call : Call) : evaluator.Extends (evaluator.after (call.session ⟨title, resolver⟩)) := by
  have follows := call.follows title resolver evaluator
  exact ⟨follows.grows_after.kept, follows.develops_after (call.constructs _)⟩

/-- Any number of calls leave alone what is there. -/
theorem extends_afterAll (evaluator : Evaluator) (title : String → String)
    (calls : List (Library × Call)) : evaluator.Extends (evaluator.afterAll title calls) := by
  rw [afterAll]
  induction calls generalizing evaluator with
  | nil => exact .refl evaluator
  | cons call rest ih =>
      obtain ⟨resolver, call⟩ := call
      exact (evaluator.extends_call title resolver call).trans (ih _)

theorem view_document {evaluator : Evaluator} {name : String} {document : Arena}
    (kept : evaluator.document? name = some document) :
    evaluator.view (.document name) = document := by
  rw [view, Library.view, library, kept]

end Evaluator

/-! ## Document paths -/

namespace Session

variable {evaluator before later : Evaluator} {path : DocumentPath}

/-- The nodes that a document path reaches among those of an evaluator. -/
def reached (path : DocumentPath) (evaluator : Evaluator) : List Item :=
  path.path.selectAlong evaluator.view path.axis [⟨.document path.document, 0⟩]

/-- A path in a document that has been kept does not ask for it. -/
theorem documentPath_kept {document : Arena}
    (kept : evaluator.document? (path.titled title).document = some document)
    (resolver : Library) : documentPath ⟨title, resolver⟩ path evaluator =
      .ok (reached (path.titled title) evaluator) evaluator := by
  rw [documentPath]
  generalize path.titled title = path at kept ⊢
  have read := read_apply resolver path.document evaluator
  rw [kept] at read
  have found : evaluator.library path.document = .ok document := by
    rw [Evaluator.library, kept]
  dsimp only
  rw [bind_ok read, perform, documentPath_apply found]
  rfl

/-- A path that has been evaluated has its document kept. -/
theorem of_documentPath_ok {items : List Item}
    (run : documentPath ⟨title, resolver⟩ path before = .ok items later) :
    (∃ document, later.document? (path.titled title).document = some document) ∧
      items = reached (path.titled title) later := by
  have read := read_apply resolver (path.titled title).document before
  cases kept : before.document? (path.titled title).document with
  | some document =>
      rw [documentPath_kept kept] at run
      cases run
      exact ⟨⟨document, kept⟩, rfl⟩
  | none =>
      rw [kept] at read
      rw [documentPath] at run
      cases found : resolver (path.titled title).document with
      | error failure =>
          rw [found] at read
          cases (bind_error read _).symm.trans run
      | ok document =>
          rw [found] at read
          let middle := before.keep (path.titled title).document document
          have now : middle.document? (path.titled title).document = some document := by
            rw [Evaluator.document?_keep, if_pos rfl]
          have again := read_apply resolver (path.titled title).document middle
          rw [now] at again
          have rerun := documentPath_kept now resolver
          rw [documentPath] at rerun
          have ends := (bind_ok read _).symm.trans run
          obtain ⟨rfl, rfl⟩ :=
            EStateM.Result.ok.inj (ends.symm.trans ((bind_ok again _).symm.trans rerun))
          exact ⟨⟨document, now⟩, rfl⟩

/-- A path reaches the same nodes as long as its document is kept. -/
theorem reached_extends (extend : before.Extends later) {document : Arena}
    (kept : before.document? path.document = some document) :
    reached path later = reached path before := by
  have agree : before.view.AgreeOn (· = .document path.document) later.view := by
    rintro _ rfl
    rw [Evaluator.view_document kept, Evaluator.view_document (extend.kept kept)]
  exact (path.path.selectAlong_agree agree path.axis (.single rfl)).1

end Session

/-! ## Evaluations disturb nothing -/

namespace Evaluator

/-- **Evaluations disturb nothing.**  However an evaluator has come about, evaluating a query,
successfully or not, changes no document that has been kept, keeps only documents as they
were found, and adds to the nodes constructed before without changing any.  So a document
path that has been evaluated yields the same nodes in the same order after any further calls,
whatever could be found then.  Names can share documents in any way. -/
theorem undisturbed (title : String → String) (calls : List (Library × Call))
    (resolver : Library) (query : Query) :
    let before := Evaluator.new.afterAll title calls
    let after := before.after (Session.evaluate ⟨title, resolver⟩ query [])
    (∀ name document, before.document? name = some document →
      after.document? name = some document) ∧
    (∀ name document, before.document? name = none → after.document? name = some document →
      resolver name = .ok document) ∧
    before.constructed.records.toList <+: after.constructed.records.toList ∧
    ∀ (finder : Library) (path : DocumentPath) (items : List Item) (later : Evaluator),
      Session.documentPath ⟨title, finder⟩ path before = .ok items later →
        ∀ (further : List (Library × Call)) (other : Library),
          Session.documentPath ⟨title, other⟩ path (later.afterAll title further) =
            .ok items (later.afterAll title further) := by
  intro before after
  have grows := ((Call.query query).follows title resolver before).grows_after
  have extend := before.extends_call title resolver (.query query)
  have formed : before.constructed.WellFormed :=
    ((new.extends_afterAll title calls).develops.extends_wellFormed .empty).1
  refine ⟨fun _ _ => extend.kept, fun _ _ => grows.found,
    (extend.develops.extends_wellFormed formed).2.isPrefix, ?_⟩
  intro finder path items later run further other
  obtain ⟨⟨document, kept⟩, rfl⟩ := Session.of_documentPath_ok run
  have since := later.extends_afterAll title further
  rw [Session.documentPath_kept (since.kept kept), Session.reached_extends since]
  exact kept

/-- A query that constructs two nodes and then fails, after one that has constructed and one
that has failed. -/
theorem undisturbed_failing :
    let resolver : Library := (Collection.empty.shelf [("f", .text "<a><b/></a>")]).library
    let calls : List (Library × Call) :=
      [(resolver, .query (.element "c" (.document ⟨"f", .child, .tag "a"⟩))),
        (resolver, .path ⟨"g", .child, .tag "a"⟩)]
    let before := Evaluator.new.afterAll id calls
    let query := Query.pair (.element "d" (.constant "t")) (.reference "x")
    let after := before.after (Session.evaluate ⟨id, resolver⟩ query [])
    let path : DocumentPath := ⟨"f", .descendantOrSelf, .tag "b"⟩
    before.constructed.size = 4 ∧ after.constructed.size = 7 ∧
    before.constructed.records.toList <+: after.constructed.records.toList ∧
    after.document? "f" = some (.ofFragments [.element "a" [] [.element "b" [] []]]) ∧
    ∀ further other, Session.documentPath ⟨id, other⟩ path (before.afterAll id further) =
      .ok [⟨.document "f", 2⟩] (before.afterAll id further) := by
  intro resolver calls before query after path
  obtain ⟨kept, _, isPrefix, again⟩ := undisturbed id calls resolver query
  have present : before.document? (path.titled id).document =
      some (.ofFragments [.element "a" [] [.element "b" [] []]]) := by decide +kernel
  have reached : Session.reached (path.titled id) before = [⟨.document "f", 2⟩] := by
    decide +kernel
  have run := Session.documentPath_kept present resolver
  rw [reached] at run
  refine ⟨by decide +kernel, by decide +kernel, ?_, ?_, again resolver path _ _ run⟩
  · simpa only [before, after] using isPrefix
  · exact kept _ _ present

end Evaluator

end TreeQuery
