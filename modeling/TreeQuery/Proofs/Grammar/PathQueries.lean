import TreeQuery.Proofs.Grammar.Stages
import TreeQuery.Proofs.Grammar.Whole
import TreeQuery.Proofs.Processor
import TreeQuery.Proofs.Query.Agreement

/-!
# Document paths as queries

A text can be read as a document path, and a query can be a document path.  The rules of queries
get to the same path by detours: they try other forms of queries first, they could go on behind the
path with a step, and a comma could belong to the path or to the query around it.  The two readings
agree all the same (`DocumentPath.parse_iff_query_parse`).

In one direction, what the rules of queries try first starts with other characters than a document
path, and at the end of the text there is nothing to go on with.  In the other direction, each rule
hands on what its inner rule has read (`Query.ReadsPath`): wherever it would add something, the
query is not a document path any more.
-/

set_option autoImplicit false

namespace TreeQuery

open Grammar Grammar.Parser

/-! ## Texts that parse -/

namespace Grammar.Parser

variable {α : Type} {parser : Parser α} {value : α}

/-- What holds wherever a parser matches holds of the value that a text comes to. -/
theorem Ensures.of_run {text : String} {last : α → Prop}
    (ensures : Ensures (· = text.toList) parser fun value _ => last value)
    (parsed : parser.run text = .ok value) : last value := by
  rw [Parser.run] at parsed
  split at parsed
  · rename_i found next _ run
    split at parsed
    · exact Except.ok.inj parsed ▸ ensures _ _ _ _ _ _ rfl run
    · cases parsed
  · cases parsed

/-- The first character of a text that a parser reads. -/
theorem head?_of_reads {text rest : List Char} {c : Char} (starts : StartsIn parser [c])
    (reads : parser.Reads text value rest) : text.head? = some c := by
  by_contra other
  refine (starts text fun d head same => other ?_).not_reads reads
  rw [← List.mem_singleton.mp same]
  exact head

end Grammar.Parser

/-! ## From queries to paths -/

/-- If a query is a document path, then a text starts with this path, and the query ends where the
path does, up to separators. -/
def Query.ReadsPath (path : Parser Path) (text : List Char) (query : Query)
    (behind : List Char) : Prop :=
  ∀ whole, query = .document whole →
    ∃ rest, (documentPath path).Reads text whole rest ∧ skip rest = skip behind

namespace Query.ReadsPath

variable {path : Parser Path} {text behind : List Char} {query : Query}

theorem of_ne (other : ∀ whole, query ≠ .document whole) :
    query.ReadsPath path text behind :=
  fun whole same => absurd same (other whole)

theorem skip (readsPath : query.ReadsPath path text behind) :
    query.ReadsPath path text (Parser.skip behind) := by
  intro whole same
  obtain ⟨rest, reads, ends⟩ := readsPath whole same
  exact ⟨rest, reads, ends.trans (settled_skip behind).symm⟩

end Query.ReadsPath

theorem Grammar.Parser.Ensures.readsPath_of_ne {path : Parser Path} {text : List Char}
    {start : List Char → Prop} {parser : Parser Query}
    (other : Ensures start parser fun query _ => ∀ whole, query ≠ .document whole) :
    Ensures start parser (Query.ReadsPath path text) :=
  other.mono (fun _ => id) fun _ _ => .of_ne

/-- Queries with commas between them are no document path. -/
theorem foldl_pair_ne_document {first : Query} {others : List Query} (several : others ≠ [])
    (path : DocumentPath) : others.foldl .pair first ≠ .document path := by
  obtain ⟨before, last, rfl⟩ := (List.eq_nil_or_concat others).resolve_left several
  rw [List.concat_eq_append, List.foldl_append]
  exact nofun

namespace Grammar.QueryLevel

variable {inner : QueryLevel}

/-- What these rules read is no document path, whatever is in it. -/
theorem ensures_ne_document (inner : QueryLevel) {start : List Char → Prop} :
    ∀ parser ∈ [inner.flwr, inner.letIn, inner.join, inner.element],
      Ensures start parser fun query _ => ∀ path, query ≠ .document path := by
  intro parser member
  simp only [List.mem_cons, List.not_mem_nil, or_false] at member
  rcases member with rfl | rfl | rfl | rfl
  all_goals
    refine Ensures.rule ?_
    repeat refine Ensures.trivial.bind fun _ => ?_
    exact .pure fun _ _ _ same => Query.noConfusion same

section

variable (decides : Decides (documentPath inner.path)) (text : List Char)
include decides

theorem queryPrimary_readsPath :
    Ensures (· = text) inner.queryPrimary (Query.ReadsPath inner.path text) := by
  have made : ∀ {α : Type} {parser : Parser α} {make : α → Query},
      (∀ value path, make value ≠ .document path) →
        Ensures (· = text) (do return make (← parser)) (Query.ReadsPath inner.path text) :=
    fun other => .readsPath_of_ne (Ensures.trivial.bind fun value => .pure fun _ _ => other value)
  refine Ensures.rule (Ensures.firstOf fun parser member => ?_)
  simp only [List.mem_cons, List.not_mem_nil, or_false] at member
  rcases member with rfl | rfl | rfl | rfl | rfl | rfl
  · refine (decides.ensures text).bind fun path => .pure fun rest reads whole same => ?_
    obtain rfl := Query.document.inj same
    exact ⟨rest, reads, rfl⟩
  · exact made fun _ _ same => Query.noConfusion same
  · exact made fun _ _ same => Query.noConfusion same
  · exact .readsPath_of_ne (ensures_ne_document inner _ (by simp))
  · exact .readsPath_of_ne (ensures_ne_document inner _ (by simp))
  · exact Ensures.rule (made fun _ _ same => Query.noConfusion same)

theorem queryPath_readsPath :
    Ensures (· = text) inner.queryPath (Query.ReadsPath inner.path text) := by
  refine Ensures.rule ((queryPrimary_readsPath decides text).bind fun base => ?_)
  refine (Ensures.blanks_of (base.ReadsPath inner.path text) fun _ => .skip).bind fun _ => ?_
  refine Ensures.optional_none.bind fun continuation => .pure fun rest kept => ?_
  cases continuation with
  | none => exact kept rfl
  | some found => exact .of_ne fun _ same => Query.noConfusion same

theorem outerSingle_readsPath :
    Ensures (· = text) inner.outerSingle (Query.ReadsPath inner.path text) := by
  refine Ensures.rule (Ensures.firstOf fun parser member => ?_)
  simp only [List.mem_cons, List.not_mem_nil, or_false] at member
  rcases member with rfl | rfl | rfl
  · exact .readsPath_of_ne (ensures_ne_document inner _ (by simp))
  · exact .readsPath_of_ne (ensures_ne_document inner _ (by simp))
  · exact queryPath_readsPath decides text

/-- **A query that is a document path has been read as one.** -/
theorem outerQuery_readsPath :
    Ensures (· = text) inner.outerQuery (Query.ReadsPath inner.path text) := by
  refine Ensures.rule ((Ensures.separated_nil (outerSingle_readsPath decides text)
    fun _ _ => .skip).bind fun read => .pure fun rest kept whole same => ?_)
  have single : read.2 = [] := by
    by_contra several
    exact foldl_pair_ne_document several whole same
  rw [single] at same
  exact kept single whole same

end

/-! ## From paths to queries -/

/-- A document path with nothing but separators behind it is read as a query. -/
theorem reads_outerQuery {text rest : List Char} {path : DocumentPath}
    (reads : (documentPath inner.path).Reads text path rest) (ends : skip rest = []) :
    inner.outerQuery.Reads text (.document path) [] := by
  have head := head?_of_reads (startsIn_documentPath inner.path) reads
  have fails : ∀ {parser : Parser Query} {c : Char}, StartsIn parser [c] → 'd' ≠ c →
      parser.Fails text := by
    intro parser c starts other
    refine starts text fun d same member => other ?_
    rw [← List.mem_singleton.mp member]
    exact Option.some.inj (head.symm.trans same)
  have primary : inner.queryPrimary.Reads text (.document path) rest :=
    Reads.rule (.orElse_left
      (reads.bind (f := fun path => Pure.pure (Query.document path)) .pure))
  have behind := reads_blanks rest
  rw [ends] at behind
  have queryPath : inner.queryPath.Reads text (.document path) [] :=
    Reads.rule (primary.bind (behind.bind
      ((startsIn_axis.bind [] nofun).optional.bind (f := fun found => Pure.pure _) .pure)))
  have single : inner.outerSingle.Reads text (.document path) [] :=
    Reads.rule (.orElse_right (fails startsIn_flwr (by decide))
      (.orElse_right (fails startsIn_letIn (by decide)) (.orElse_left queryPath)))
  have separated : (Parser.separated comma inner.outerSingle).Reads text (.document path, []) [] :=
    single.bind ((reads_blanks []).bind ((startsIn_comma.bind [] nofun).many.bind .pure))
  exact Reads.rule (separated.bind .pure)

end Grammar.QueryLevel

/-! ## Agreement -/

theorem Grammar.decides_pathFor (text : String) : Decides (documentPath (pathFor text)) :=
  decides_documentPath (levelsFor text)

/-- A text is read as a document path if it starts with one and nothing but separators is around
it. -/
theorem DocumentPath.parse_eq_ok {text : String} {path : DocumentPath} :
    DocumentPath.parse text = .ok path ↔
      ∃ rest, (documentPath (pathFor text)).Reads (skip text.toList) path rest ∧
        skip rest = [] := by
  constructor
  · intro parsed
    have content : Ensures (· = skip text.toList) (documentPath (pathFor text))
        fun path behind => ∃ rest,
          (documentPath (pathFor text)).Reads (skip text.toList) path rest ∧
            skip rest = skip behind :=
      ((decides_pathFor text).ensures _).mono (fun _ => id) fun _ rest reads => ⟨rest, reads, rfl⟩
    refine (content.whole ?_).of_run parsed
    rintro path behind ⟨rest, reads, ends⟩
    exact ⟨rest, reads, ends.trans (settled_skip behind).symm⟩
  · rintro ⟨rest, reads, ends⟩
    exact (reads.whole ends).run

/-- And it is then read as a query that is this path, and only then. -/
theorem Query.parse_eq_document {text : String} {path : DocumentPath} :
    Query.parse text = .ok (.document path) ↔
      ∃ rest, (documentPath (pathFor text)).Reads (skip text.toList) path rest ∧
        skip rest = [] := by
  have level : (queryLevel (pathFor text) text.length).path = pathFor text :=
    queryLevel_path _ _
  have query : (queryLevel (pathFor text) (levelsFor text)).query =
      (queryLevel (pathFor text) text.length).outerQuery := rfl
  rw [Query.parse, query]
  constructor
  · intro parsed
    have decides : Decides (documentPath (queryLevel (pathFor text) text.length).path) := by
      rw [level]
      exact decides_pathFor text
    have content := QueryLevel.outerQuery_readsPath decides (skip text.toList)
    have readsPath := (content.whole fun _ _ => .skip).of_run parsed
    rw [level] at readsPath
    exact readsPath path rfl
  · rintro ⟨rest, reads, ends⟩
    rw [← level] at reads
    exact ((QueryLevel.reads_outerQuery reads ends).whole rfl).run

/-! ## Evaluations -/

/-- Renaming and optimizing keep a document path as it is. -/
theorem Query.prepare_document (strict : Bool) (path : DocumentPath) :
    (Query.document path).prepare strict = .ok ⟨.document path, .document path, 0⟩ :=
  rfl

/-- A document path constructs nothing. -/
theorem Session.constructed_documentPath {resolver : Resolver} {path : DocumentPath}
    {outcome : Outcome} (run : (Session.documentPath resolver path).outcome = .ok outcome) :
    outcome.constructed = .empty := by
  rw [Session.outcome_documentPath, Evaluation.outcome_eq_ok] at run
  cases found : resolver.library (path.titled resolver.title).document with
  | error failure =>
      rw [Evaluation.documentPath_error found] at run
      cases run
  | ok document =>
      rw [Evaluation.documentPath_apply found] at run
      exact (EStateM.Result.ok.inj run).2.symm

/-- **The entry points agree on document paths.**  A text is a document path exactly if it is a
query and, as a query, this path.  However a processor treats queries, it then gives one answer
to the path, to the query and to the optimized query: the same failure, or the same items, which
are nodes of documents as nothing is constructed. -/
theorem DocumentPath.parse_iff_query_parse (text : String) (path : DocumentPath) :
    (DocumentPath.parse text = .ok path ↔ Query.parse text = .ok (.document path)) ∧
      (DocumentPath.parse text = .ok path → ∀ processor : Processor,
        processor.evaluateSource text = processor.evaluatePath text ∧
          processor.evaluateOptimized text = processor.evaluatePath text ∧
          ∀ outcome, processor.evaluatePath text = .ok outcome → outcome.constructed = .empty) := by
  have agree : DocumentPath.parse text = .ok path ↔ Query.parse text = .ok (.document path) :=
    DocumentPath.parse_eq_ok.trans Query.parse_eq_document.symm
  refine ⟨agree, fun parsed processor => ?_⟩
  have query := agree.mp parsed
  have onPath : processor.evaluatePath text =
      (Session.documentPath processor.resolver path).outcome := by
    rw [Processor.evaluatePath, parsed]
    rfl
  have evaluated : processor.evaluate (.document path) =
      (Session.documentPath processor.resolver path).outcome := by
    rw [Processor.evaluate, Session.evaluate]
  have optimized : processor.evaluateOptimized text = processor.evaluatePath text := by
    rw [Processor.evaluateOptimized, Processor.optimize, query, onPath, ← evaluated]
    show (do
      let optimization ← (Query.document path).prepare processor.treatment.strict
      processor.evaluate optimization.optimized) = _
    rw [Query.prepare_document]
    rfl
  refine ⟨?_, optimized, fun outcome answered => ?_⟩
  · rw [Processor.evaluateSource]
    split
    · exact optimized
    · rw [query, onPath, ← evaluated]
      rfl
  · exact Session.constructed_documentPath (onPath.symm.trans answered)

/-- With blanks, the longer keyword and a comma that belongs to the path, and with a processor that
optimizes strictly: an element and an attribute. -/
theorem DocumentPath.parse_iff_query_parse_elementAndAttribute :
    let resolver := Collection.empty.resolver [("f", .text "<a k=\"1\"><b>t</b></a>")]
    let processor : Processor := ⟨resolver, ⟨true, true⟩⟩
    let text := " document ( \"f\" )//b , ../@k\n"
    let items : List Item := [⟨.document "f", 3⟩, ⟨.document "f", 2⟩]
    Query.parse text = .ok (.document ⟨"f", .descendantOrSelf,
        .pair (.tag "b") (.step .parent .child (.attribute "k"))⟩) ∧
      (processor.evaluatePath text).map (·.items) = .ok items ∧
      (processor.evaluateSource text).map (·.items) = .ok items ∧
      (processor.evaluateOptimized text).map (·.items) = .ok items := by
  intro resolver processor text items
  have parsed : DocumentPath.parse text = .ok ⟨"f", .descendantOrSelf,
      .pair (.tag "b") (.step .parent .child (.attribute "k"))⟩ := by decide +kernel
  obtain ⟨agree, answers⟩ := DocumentPath.parse_iff_query_parse text _
  obtain ⟨source, optimized, _⟩ := answers parsed processor
  have found : (processor.evaluatePath text).map (·.items) = .ok items := by decide +kernel
  exact ⟨agree.mp parsed, found, source ▸ found, optimized ▸ found⟩

end TreeQuery
