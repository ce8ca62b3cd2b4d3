import TreeQuery.Proofs.Query.Agreement
import TreeQuery.Proofs.Query.Construction
import TreeQuery.Proofs.Query.Titles

/-!
# What evaluators compute

An evaluator answers a query as it is evaluated over a library, with documents asked for by
their titles: over the documents that it has kept and, for all other titles, those that it would
find (`Session.evaluate_follows`).
It reads only nodes of documents that it has kept and nodes that it has constructed, so it
does not matter that the other documents have not been read yet.
-/

set_option autoImplicit false

namespace TreeQuery

open Evaluation

variable {α β : Type} {resolver library : Library} {title : String → String}

/-! ## Growth of evaluators -/

namespace Evaluator

variable {before middle after : Evaluator}

/-- The documents that titles stand for: those that have been kept, and for all other titles
those that can be found. -/
def standing (evaluator : Evaluator) (resolver : Library) : Library := fun name =>
  match evaluator.document? name with
  | some document => .ok document
  | none => resolver name

/-- Every document that has been kept stays, and what is kept anew is what could be found. -/
structure Grows (resolver : Library) (before after : Evaluator) : Prop where
  kept : ∀ {name : String} {document : Arena}, before.document? name = some document →
    after.document? name = some document
  standing : after.standing resolver = before.standing resolver

theorem Grows.refl (evaluator : Evaluator) : evaluator.Grows resolver evaluator := ⟨id, rfl⟩

theorem Grows.trans (first : before.Grows resolver middle) (second : middle.Grows resolver after) :
    before.Grows resolver after :=
  ⟨second.kept ∘ first.kept, second.standing.trans first.standing⟩

/-- A document that is kept anew is the one that could be found. -/
theorem Grows.found (grows : before.Grows resolver after) {name : String} {document : Arena}
    (notKept : before.document? name = none) (now : after.document? name = some document) :
    resolver name = .ok document := by
  have same := congrFun grows.standing name
  rw [Evaluator.standing, Evaluator.standing, now, notKept] at same
  exact same.symm

theorem document?_keep (evaluator : Evaluator) (name other : String) (document : Arena) :
    (evaluator.keep name document).document? other =
      if other = name then some document else evaluator.document? other := by
  rw [document?, keep, List.lookup_cons]
  by_cases same : other = name
  · rw [if_pos same, beq_iff_eq.mpr same]
  · rw [if_neg same, beq_false_of_ne same]
    rfl

theorem grows_keep {evaluator : Evaluator} {name : String} {document : Arena}
    (notKept : evaluator.document? name = none) (found : resolver name = .ok document) :
    evaluator.Grows resolver (evaluator.keep name document) := by
  constructor
  case kept =>
    intro other earlier present
    rw [document?_keep]
    by_cases same : other = name
    · subst same
      cases notKept.symm.trans present
    · rw [if_neg same, present]
  case standing =>
    funext other
    rw [Evaluator.standing, Evaluator.standing, document?_keep]
    by_cases same : other = name
    · subst same
      rw [if_pos rfl, notKept, found]
    · rw [if_neg same]

/-- Whether a document has been kept. -/
def Keeps (evaluator : Evaluator) (name : String) : Prop :=
  (evaluator.document? name).isSome = true

/-- The items of a list are constructed or live in documents that have been kept. -/
def Knows (evaluator : Evaluator) (items : List Item) : Prop :=
  Within (Home.Of evaluator.Keeps) items

theorem Grows.keeps (grows : before.Grows resolver after) {name : String}
    (keeps : before.Keeps name) : after.Keeps name := by
  obtain ⟨document, present⟩ := Option.isSome_iff_exists.mp keeps
  rw [Keeps, grows.kept present]
  rfl

theorem Grows.knows (grows : before.Grows resolver after) {items : List Item}
    (known : before.Knows items) : after.Knows items := by
  intro item member
  have inside := known item member
  generalize item.home = home at inside
  cases home with
  | constructed => trivial
  | document name => exact grows.keeps inside

/-- The documents that have been kept are those that stand for their names. -/
theorem agreeOn_standing (evaluator : Evaluator) (resolver : Library) :
    evaluator.library.AgreeOn evaluator.Keeps (evaluator.standing resolver) := by
  intro name keeps
  obtain ⟨document, present⟩ := Option.isSome_iff_exists.mp keeps
  rw [library, standing, present]

end Evaluator

/-- The items of a scope are known. -/
def Scope.Known (evaluator : Evaluator) (scope : Scope) : Prop :=
  ∀ binding ∈ scope, evaluator.Knows binding.2

namespace Scope.Known

variable {evaluator later : Evaluator} {scope : Scope} {items : List Item}

theorem nil : Scope.Known evaluator [] := List.forall_mem_nil _

theorem cons (name : String) (known : evaluator.Knows items) (rest : Scope.Known evaluator scope) :
    Scope.Known evaluator ((name, items) :: scope) := by
  rintro _ (_ | ⟨_, member⟩)
  · exact known
  · exact rest _ member

theorem grow (known : Scope.Known evaluator scope) (grows : evaluator.Grows resolver later) :
    Scope.Known later scope :=
  fun binding member => grows.knows (known binding member)

theorem of_lookup (known : Scope.Known evaluator scope) {name : String}
    (found : scope.lookup name = some items) : evaluator.Knows items :=
  known (name, items) (mem_of_lookup found)

end Scope.Known

/-! ## Following an evaluation -/

namespace Session

theorem bind_ok {session : Session α} {before middle : Evaluator} {value : α}
    (run : session before = .ok value middle) (next : α → Session β) :
    (session >>= next) before = next value middle := by
  simp only [bind, EStateM.bind, run]

theorem bind_error {session : Session α} {before after : Evaluator} {failure : Failure}
    (run : session before = .error failure after) (next : α → Session β) :
    (session >>= next) before = .error failure after := by
  simp only [bind, EStateM.bind, run]

/-- Reading a document changes nothing if it has been kept, and keeps it if it can be found. -/
theorem read_apply (resolver : Library) (name : String) (evaluator : Evaluator) :
    read resolver name evaluator =
      match evaluator.document? name, resolver name with
      | some _, _ => .ok () evaluator
      | none, .ok document => .ok () (evaluator.keep name document)
      | none, .error failure => .error failure evaluator := by
  have state : (get : Session Evaluator) evaluator = .ok evaluator evaluator := rfl
  rw [read, bind_ok state]
  cases evaluator.document? name with
  | some _ => rfl
  | none =>
      cases resolver name with
      | ok _ | error _ => rfl

/-- A computation of an evaluator ends as an evaluation does: with the same value or failure and
the same constructed nodes, and what it yields is known then. -/
inductive Follows (resolver : Library) (known : Evaluator → α → Prop) (evaluator : Evaluator)
    (session : Session α) (evaluation : Evaluation α) : Prop where
  | ok {value : α} {later : Evaluator} :
      session evaluator = .ok value later →
      evaluation evaluator.constructed = .ok value later.constructed →
      evaluator.Grows resolver later → known later value →
        Follows resolver known evaluator session evaluation
  | error {failure : Failure} {later : Evaluator} :
      session evaluator = .error failure later →
      evaluation evaluator.constructed = .error failure later.constructed →
      evaluator.Grows resolver later → Follows resolver known evaluator session evaluation

namespace Follows

variable {evaluator : Evaluator} {known : Evaluator → α → Prop} {knownNext : Evaluator → β → Prop}
variable {session : Session α} {evaluation : Evaluation α}

/-- What an evaluator does when the evaluation succeeds. -/
theorem of_ok (follows : Follows resolver known evaluator session evaluation) {value : α}
    {constructed : Arena}
    (evaluated : evaluation evaluator.constructed = .ok value constructed) :
    ∃ later, session evaluator = .ok value later ∧ later.constructed = constructed ∧
      evaluator.Grows resolver later ∧ known later value := by
  cases follows with
  | ok run also grows isKnown =>
      cases also.symm.trans evaluated
      exact ⟨_, run, rfl, grows, isKnown⟩
  | error _ also => cases also.symm.trans evaluated

theorem of_error (follows : Follows resolver known evaluator session evaluation)
    {failure : Failure} {constructed : Arena}
    (evaluated : evaluation evaluator.constructed = .error failure constructed) :
    ∃ later, session evaluator = .error failure later := by
  cases follows with
  | ok _ also => cases also.symm.trans evaluated
  | error run also =>
      cases also.symm.trans evaluated
      exact ⟨_, run⟩

/-- What the evaluation does when an evaluator fails. -/
theorem evaluated_error (follows : Follows resolver known evaluator session evaluation)
    {failure : Failure} {later : Evaluator} (run : session evaluator = .error failure later) :
    evaluation evaluator.constructed = .error failure later.constructed := by
  cases follows with
  | ok also => cases also.symm.trans run
  | error also evaluated =>
      cases also.symm.trans run
      exact evaluated

theorem pure {value : α} (isKnown : known evaluator value) :
    Follows resolver known evaluator (Pure.pure value) (Pure.pure value) :=
  .ok rfl rfl (.refl _) isKnown

theorem throw (failure : Failure) :
    Follows resolver known evaluator (MonadExcept.throw failure) (MonadExcept.throw failure) :=
  .error rfl rfl (.refl _)

theorem bind {next : α → Session β} {nextEvaluation : α → Evaluation β}
    (follows : Follows resolver known evaluator session evaluation)
    (continues : ∀ {later : Evaluator} {value : α}, evaluator.Grows resolver later →
      known later value →
        Follows resolver knownNext later (next value) (nextEvaluation value)) :
    Follows resolver knownNext evaluator (session >>= next) (evaluation >>= nextEvaluation) := by
  cases follows with
  | error run evaluated grows =>
      exact .error (Session.bind_error run next) (Evaluation.bind_error evaluated nextEvaluation)
        grows
  | ok run evaluated grows isKnown =>
      have left := Session.bind_ok run next
      have right := Evaluation.bind_ok evaluated nextEvaluation
      cases continues grows isKnown with
      | error rerun reevaluated further =>
          exact .error (left.trans rerun) (right.trans reevaluated) (grows.trans further)
      | ok rerun reevaluated further isKnown =>
          exact .ok (left.trans rerun) (right.trans reevaluated) (grows.trans further) isKnown

/-- Evaluating over the documents that have been kept, if that makes no difference. -/
theorem perform {perform : Library → Evaluation α}
    (same : perform library = perform evaluator.library)
    (knows : ∀ {value : α} {constructed : Arena},
      perform library evaluator.constructed = .ok value constructed →
        known { evaluator with constructed } value) :
    Follows resolver known evaluator (Session.perform perform) (perform library) := by
  cases evaluated : perform library evaluator.constructed with
  | ok value constructed =>
      have grows : evaluator.Grows resolver { evaluator with constructed } := ⟨id, rfl⟩
      refine .ok ?_ evaluated grows (knows evaluated)
      rw [Session.perform, ← same, evaluated]
  | error failure constructed =>
      have grows : evaluator.Grows resolver { evaluator with constructed } := ⟨id, rfl⟩
      refine .error ?_ evaluated grows
      rw [Session.perform, ← same, evaluated]

section Items

variable (serves : evaluator.standing resolver = library) {items others : List Item}
include serves

/-- Reading what depends on known items only. -/
theorem observe {look : View Home → α}
    (same : ∀ {first second : View Home}, first.AgreeOn (Home.Of evaluator.Keeps) second →
      look second = look first)
    (knows : ∀ view, known evaluator (look view)) :
    Follows resolver known evaluator (Session.observe look)
      (Evaluation.observe library look) := by
  refine perform (observe_agree (serves ▸ evaluator.agreeOn_standing resolver) same) ?_
  intro value constructed run
  rw [observe_apply] at run
  cases run
  exact knows _

/-- A path that continues known items reaches known items. -/
theorem selectAlong (isKnown : evaluator.Knows items) (path : Path) (axis : Axis) :
    Follows resolver Evaluator.Knows evaluator
      (Session.observe fun view => path.selectAlong view axis items)
      (Evaluation.observe library fun view => path.selectAlong view axis items) :=
  observe serves (fun agree => (path.selectAlong_agree agree axis isKnown).1)
    fun _ => (path.selectAlong_agree (fun _ _ => rfl) axis isKnown).2

theorem constructElement (isKnown : evaluator.Knows items) (name : String) :
    Follows resolver (fun later item => later.Knows [item]) evaluator
      (Session.perform fun library => Evaluation.constructElement library name items)
      (Evaluation.constructElement library name items) := by
  refine perform (constructElement_agree (serves ▸ evaluator.agreeOn_standing resolver) name
    isKnown) ?_
  intro value constructed run
  rw [constructElement_apply] at run
  cases run
  exact .single trivial

theorem joinTuples (order : KeyOrder) (isKnown : evaluator.Knows items)
    (alsoKnown : evaluator.Knows others) (leftTags rightTags : List String) :
    Follows resolver Evaluator.Knows evaluator
      (Session.perform fun library =>
        Evaluation.joinTuples library order items others leftTags rightTags)
      (Evaluation.joinTuples library order items others leftTags rightTags) := by
  refine perform (joinTuples_agree (serves ▸ evaluator.agreeOn_standing resolver) order
    isKnown alsoKnown leftTags rightTags) ?_
  intro found constructed run item member
  rw [home_of_joinTuples run item member]
  trivial

end Items

theorem constructText (value : String) :
    Follows resolver (fun later item => later.Knows [item]) evaluator
      (Session.perform fun _ => Evaluation.constructText value)
      (Evaluation.constructText value) :=
  .ok rfl rfl ⟨id, rfl⟩ (.single trivial)

/-- What an evaluator reads before does not count. -/
theorem prepend {first : Session β} {next : β → Session α} {value : β} {middle : Evaluator}
    (run : first evaluator = .ok value middle)
    (constructed : middle.constructed = evaluator.constructed)
    (grows : evaluator.Grows resolver middle)
    (follows : Follows resolver known middle (next value) evaluation) :
    Follows resolver known evaluator (first >>= next) evaluation := by
  cases follows with
  | ok rerun evaluated further isKnown =>
      rw [constructed] at evaluated
      exact .ok ((Session.bind_ok run next).trans rerun) evaluated (grows.trans further) isKnown
  | error rerun evaluated further =>
      rw [constructed] at evaluated
      exact .error ((Session.bind_ok run next).trans rerun) evaluated (grows.trans further)

/-- A path in a document that has been kept. -/
theorem keptPath (serves : evaluator.standing resolver = library) {path : DocumentPath}
    {document : Arena} (kept : evaluator.document? path.document = some document) :
    Follows resolver Evaluator.Knows evaluator
      (Session.perform fun library => Evaluation.documentPath library path)
      (Evaluation.documentPath library path) := by
  have keeps : evaluator.Keeps path.document := Option.isSome_iff_exists.mpr ⟨document, kept⟩
  refine perform (documentPath_agree (serves ▸ evaluator.agreeOn_standing resolver) keeps) ?_
  intro items constructed run
  have stands : library path.document = .ok document := by
    rw [← serves, Evaluator.standing, kept]
  rw [documentPath_apply stands] at run
  cases run
  exact (path.path.selectAlong_agree (fun _ _ => rfl) path.axis (Home.within_root keeps)).2

/-- A document path is taken in the document that its name stands for, which is kept then. -/
theorem documentPath (serves : evaluator.standing resolver = library) (path : DocumentPath) :
    Follows resolver Evaluator.Knows evaluator (Session.documentPath ⟨title, resolver⟩ path)
      (Evaluation.documentPath library (path.titled title)) := by
  rw [Session.documentPath]
  generalize path.titled title = path
  have read := Session.read_apply resolver path.document evaluator
  cases kept : evaluator.document? path.document with
  | some document =>
      rw [kept] at read
      exact prepend read rfl (.refl _) (keptPath serves kept)
  | none =>
      rw [kept] at read
      cases found : resolver path.document with
      | ok document =>
          rw [found] at read
          have grows := Evaluator.grows_keep kept found
          have now : (evaluator.keep path.document document).document? path.document =
              some document := by
            rw [Evaluator.document?_keep, if_pos rfl]
          exact prepend read rfl grows (keptPath (grows.standing.trans serves) now)
      | error failure =>
          rw [found] at read
          have stands : library path.document = .error failure := by
            rw [← serves, Evaluator.standing, kept]
            exact found
          exact .error (Session.bind_error read _) (documentPath_error stands _) (.refl _)

/-- Visits of the items of a list collect what the evaluations collect. -/
theorem collect {visit : Item → Session (List Item)} {evaluate : Item → Evaluation (List Item)}
    {items : List Item} (isKnown : evaluator.Knows items)
    (visits : ∀ {later : Evaluator} {item : Item}, evaluator.Grows resolver later →
      later.Knows [item] → Follows resolver Evaluator.Knows later (visit item) (evaluate item)) :
    Follows resolver Evaluator.Knows evaluator (Session.collect visit items)
      (Evaluation.collect evaluate items) := by
  induction items generalizing evaluator with
  | nil => exact .pure .nil
  | cons item rest ih =>
      obtain ⟨known, restKnown⟩ := List.forall_mem_cons.mp isKnown
      refine (visits (.refl _) (.single known)).bind fun grows found => ?_
      refine (ih (grows.knows restKnown) fun further => visits (grows.trans further)).bind
        fun further others => ?_
      exact .pure ((further.knows found).append others)

/-- Visits of the items of a list end as the evaluations do once one says yes. -/
theorem any {visit : Item → Session Bool} {evaluate : Item → Evaluation Bool}
    {items : List Item} (isKnown : evaluator.Knows items)
    (visits : ∀ {later : Evaluator} {item : Item}, evaluator.Grows resolver later →
      later.Knows [item] →
        Follows resolver (fun _ _ => True) later (visit item) (evaluate item)) :
    Follows resolver (fun _ _ => True) evaluator (Session.any visit items)
      (Evaluation.any evaluate items) := by
  induction items generalizing evaluator with
  | nil => exact .pure trivial
  | cons item rest ih =>
      obtain ⟨known, restKnown⟩ := List.forall_mem_cons.mp isKnown
      refine (visits (.refl _) (.single known)).bind fun {_ yes} grows _ => ?_
      cases yes with
      | true => exact .pure trivial
      | false => exact ih (grows.knows restKnown) fun further => visits (grows.trans further)

end Follows

/-! ## Queries -/

mutual
/-- **An evaluator answers a query as it is evaluated over the standing documents.** -/
theorem evaluate_follows : (query : Query) → ∀ {evaluator : Evaluator} {scope : Scope},
    evaluator.standing resolver = library → scope.Known evaluator →
      Follows resolver Evaluator.Knows evaluator (evaluate ⟨title, resolver⟩ query scope)
        ((query.titled title).evaluate library scope)
  | .reference name, evaluator, scope, _, known => by
      rw [evaluate, Query.titled, Query.evaluate]
      cases found : scope.lookup name with
      | some items => exact .pure (known.of_lookup found)
      | none => exact .throw _
  | .constant value, evaluator, scope, _, _ => by
      rw [evaluate, Query.titled, Query.evaluate]
      exact (Follows.constructText value).bind fun _ known => .pure known
  | .document path, evaluator, scope, serves, _ => by
      rw [evaluate, Query.titled, Query.evaluate]
      exact .documentPath serves path
  | .parenthesized inner, evaluator, scope, serves, known => by
      rw [evaluate, Query.titled, Query.evaluate]
      exact evaluate_follows inner serves known
  | .pair left right, evaluator, scope, serves, known => by
      rw [evaluate, Query.titled, Query.evaluate]
      refine (evaluate_follows left serves known).bind fun grows found => ?_
      refine (evaluate_follows right (grows.standing.trans serves) (known.grow grows)).bind
        fun further others => ?_
      exact .pure ((further.knows found).append others)
  | .step base axis path, evaluator, scope, serves, known => by
      rw [evaluate, Query.titled, Query.evaluate]
      refine (evaluate_follows base serves known).bind fun grows context => ?_
      exact .selectAlong (grows.standing.trans serves) context path axis
  | .element name body, evaluator, scope, serves, known => by
      rw [evaluate, Query.titled, Query.evaluate]
      refine (evaluate_follows body serves known).bind fun grows content => ?_
      exact (Follows.constructElement (grows.standing.trans serves) content name).bind
        fun _ known => .pure known
  | .join left right leftTags rightTags, evaluator, scope, serves, known => by
      rw [evaluate, Query.titled, Query.evaluate, join, Evaluation.join]
      split
      · refine (evaluate_follows left serves known).bind fun grows tuples => ?_
        have serves := grows.standing.trans serves
        refine (evaluate_follows right serves (known.grow grows)).bind fun further others => ?_
        exact .joinTuples (further.standing.trans serves) .asMet (further.knows tuples) others
          leftTags rightTags
      · exact .throw _
  | .letIn bindings body, evaluator, scope, serves, known => by
      rw [evaluate, Query.titled, Query.evaluate]
      refine (bindApart_follows bindings serves known known).bind fun grows inner => ?_
      exact evaluate_follows body (grows.standing.trans serves) inner
  | .flwr bindings lets condition result, evaluator, scope, serves, known => by
      rw [evaluate, Query.titled, Query.evaluate]
      refine collectTuples_follows bindings serves known fun grows tuple => ?_
      have serves := grows.standing.trans serves
      refine bindInOrder_follows lets serves tuple fun grows row => ?_
      have serves := grows.standing.trans serves
      refine (holdsIfPresent_follows condition serves row).bind fun {_ yes} grows _ => ?_
      cases yes with
      | true => exact evaluate_follows result (grows.standing.trans serves) (row.grow grows)
      | false => exact .pure .nil

theorem holds_follows : (condition : Condition) → ∀ {evaluator : Evaluator} {scope : Scope},
    evaluator.standing resolver = library → scope.Known evaluator →
      Follows resolver (fun _ _ => True) evaluator (holds ⟨title, resolver⟩ condition scope)
        ((condition.titled title).holds library scope)
  | .valueEq left right, evaluator, scope, serves, known => by
      rw [holds, Condition.titled, Condition.holds]
      rw [left.constant?_titled, right.constant?_titled]
      cases left.constant? with
      | some value =>
          cases right.constant? with
          | some other => exact .pure trivial
          | none =>
              refine (evaluate_follows right serves known).bind fun grows items => ?_
              exact .observe (grows.standing.trans serves)
                (fun agree => anyStringValue_agree agree items value) fun _ => trivial
      | none =>
          cases right.constant? with
          | some value =>
              refine (evaluate_follows left serves known).bind fun grows items => ?_
              exact .observe (grows.standing.trans serves)
                (fun agree => anyStringValue_agree agree items value) fun _ => trivial
          | none =>
              refine (evaluate_follows left serves known).bind fun grows items => ?_
              have serves := grows.standing.trans serves
              refine (evaluate_follows right serves (known.grow grows)).bind
                fun further others => ?_
              exact .observe (further.standing.trans serves)
                (fun agree => anyValueEq_agree agree (further.knows items) others)
                fun _ => trivial
  | .identityEq left right, evaluator, scope, serves, known => by
      rw [holds, Condition.titled, Condition.holds]
      refine (evaluate_follows left serves known).bind fun grows _ => ?_
      exact (evaluate_follows right (grows.standing.trans serves) (known.grow grows)).bind
        fun _ _ => .pure trivial
  | .empty query, evaluator, scope, serves, known => by
      rw [holds, Condition.titled, Condition.holds]
      exact (evaluate_follows query serves known).bind fun _ _ => .pure trivial
  | .someSatisfies bindings body, evaluator, scope, serves, known => by
      rw [holds, Condition.titled, Condition.holds]
      exact anyTuple_follows bindings serves known fun grows tuple =>
        holds_follows body (grows.standing.trans serves) tuple
  | .parenthesized inner, evaluator, scope, serves, known => by
      rw [holds, Condition.titled, Condition.holds]
      exact holds_follows inner serves known
  | .and left right, evaluator, scope, serves, known => by
      rw [holds, Condition.titled, Condition.holds]
      refine (holds_follows left serves known).bind fun {_ yes} grows _ => ?_
      cases yes with
      | true => exact holds_follows right (grows.standing.trans serves) (known.grow grows)
      | false => exact .pure trivial
  | .or left right, evaluator, scope, serves, known => by
      rw [holds, Condition.titled, Condition.holds]
      refine (holds_follows left serves known).bind fun {_ yes} grows _ => ?_
      cases yes with
      | true => exact .pure trivial
      | false => exact holds_follows right (grows.standing.trans serves) (known.grow grows)
  | .not inner, evaluator, scope, serves, known => by
      rw [holds, Condition.titled, Condition.holds]
      exact (holds_follows inner serves known).bind fun _ _ => .pure trivial

theorem holdsIfPresent_follows : (condition : Option Condition) →
    ∀ {evaluator : Evaluator} {scope : Scope}, evaluator.standing resolver = library →
      scope.Known evaluator →
        Follows resolver (fun _ _ => True) evaluator
          (holdsIfPresent ⟨title, resolver⟩ condition scope)
          (Condition.holdsIfPresent library (Condition.titledIfPresent title condition) scope)
  | none, evaluator, scope, _, _ => by
      rw [holdsIfPresent, Condition.titledIfPresent, Condition.holdsIfPresent]
      exact .pure trivial
  | some condition, evaluator, scope, serves, known => by
      rw [holdsIfPresent, Condition.titledIfPresent, Condition.holdsIfPresent]
      exact holds_follows condition serves known

theorem collectTuples_follows : (bindings : List Binding) →
    ∀ {evaluator : Evaluator} {scope : Scope}, evaluator.standing resolver = library →
      scope.Known evaluator → ∀ {visit : Scope → Session (List Item)}
      {visited : Scope → Evaluation (List Item)},
      (∀ {later : Evaluator} {scope : Scope}, evaluator.Grows resolver later →
        scope.Known later →
          Follows resolver Evaluator.Knows later (visit scope) (visited scope)) →
      Follows resolver Evaluator.Knows evaluator
        (collectTuples ⟨title, resolver⟩ bindings scope visit)
        (Binding.collectTuples library (Binding.titledAll title bindings) scope visited)
  | [], evaluator, scope, _, known, visit, visited, visits => by
      rw [collectTuples, Binding.titledAll, Binding.collectTuples]
      exact visits (.refl _) known
  | ⟨name, source⟩ :: rest, evaluator, scope, serves, known, visit, visited, visits => by
      rw [collectTuples, Binding.titledAll, Binding.collectTuples]
      refine (evaluate_follows source serves known).bind fun grows items => ?_
      have serves := grows.standing.trans serves
      refine .collect items fun further item => ?_
      refine collectTuples_follows rest (further.standing.trans serves)
        (.cons name item (known.grow (grows.trans further))) fun last => ?_
      exact visits ((grows.trans further).trans last)

theorem anyTuple_follows : (bindings : List Binding) →
    ∀ {evaluator : Evaluator} {scope : Scope}, evaluator.standing resolver = library →
      scope.Known evaluator → ∀ {visit : Scope → Session Bool} {visited : Scope → Evaluation Bool},
      (∀ {later : Evaluator} {scope : Scope}, evaluator.Grows resolver later →
        scope.Known later →
          Follows resolver (fun _ _ => True) later (visit scope) (visited scope)) →
      Follows resolver (fun _ _ => True) evaluator (anyTuple ⟨title, resolver⟩ bindings scope visit)
        (Binding.anyTuple library (Binding.titledAll title bindings) scope visited)
  | [], evaluator, scope, _, known, visit, visited, visits => by
      rw [anyTuple, Binding.titledAll, Binding.anyTuple]
      exact visits (.refl _) known
  | ⟨name, source⟩ :: rest, evaluator, scope, serves, known, visit, visited, visits => by
      rw [anyTuple, Binding.titledAll, Binding.anyTuple]
      refine (evaluate_follows source serves known).bind fun grows items => ?_
      have serves := grows.standing.trans serves
      refine .any items fun further item => ?_
      refine anyTuple_follows rest (further.standing.trans serves)
        (.cons name item (known.grow (grows.trans further))) fun last => ?_
      exact visits ((grows.trans further).trans last)

theorem bindInOrder_follows : (bindings : List Binding) →
    ∀ {evaluator : Evaluator} {scope : Scope}, evaluator.standing resolver = library →
      scope.Known evaluator → ∀ {visit : Scope → Session (List Item)}
      {visited : Scope → Evaluation (List Item)},
      (∀ {later : Evaluator} {scope : Scope}, evaluator.Grows resolver later →
        scope.Known later →
          Follows resolver Evaluator.Knows later (visit scope) (visited scope)) →
      Follows resolver Evaluator.Knows evaluator
        (bindInOrder ⟨title, resolver⟩ bindings scope visit)
        (Binding.bindInOrder library (Binding.titledAll title bindings) scope visited)
  | [], evaluator, scope, _, known, visit, visited, visits => by
      rw [bindInOrder, Binding.titledAll, Binding.bindInOrder]
      exact visits (.refl _) known
  | ⟨name, source⟩ :: rest, evaluator, scope, serves, known, visit, visited, visits => by
      rw [bindInOrder, Binding.titledAll, Binding.bindInOrder]
      refine (evaluate_follows source serves known).bind fun grows items => ?_
      refine bindInOrder_follows rest (grows.standing.trans serves)
        (.cons name items (known.grow grows)) fun further => ?_
      exact visits (grows.trans further)

theorem bindApart_follows : (bindings : List Binding) →
    ∀ {evaluator : Evaluator} {outer inner : Scope}, evaluator.standing resolver = library →
      outer.Known evaluator → inner.Known evaluator →
      Follows resolver Scope.Known evaluator (bindApart ⟨title, resolver⟩ bindings outer inner)
        (Binding.bindApart library (Binding.titledAll title bindings) outer inner)
  | [], evaluator, outer, inner, _, _, innerKnown => by
      rw [bindApart, Binding.titledAll, Binding.bindApart]
      exact .pure innerKnown
  | ⟨name, source⟩ :: rest, evaluator, outer, inner, serves, known, innerKnown => by
      rw [bindApart, Binding.titledAll, Binding.bindApart]
      refine (evaluate_follows source serves known).bind fun grows items => ?_
      exact bindApart_follows rest (grows.standing.trans serves) (known.grow grows)
        (.cons name items (innerKnown.grow grows))
end

end Session

end TreeQuery
