import TreeQuery.Proofs.Grammar.Results
import TreeQuery.Proofs.Grammar.Paths
import TreeQuery.Proofs.Query.Tokens

/-!
# What texts are read as

Everything that the grammar reads is printable: names are names, tags are not reserved, strings
fit between double quotes, clauses bind something, and no path continues another path.

The last point is a matter of greed.  A path goes on as long as a further step can be read, so
no step is left to be read behind the path of a document.
-/

set_option autoImplicit false

namespace TreeQuery

open TreeQuery.Grammar.Parser TreeQuery.Grammar

/-! ## Names and strings -/

/-- A name is read as far as it goes. -/
theorem reads_or_fails_identifier (text : List Char) :
    (∃ name rest, text = name.toList ++ rest ∧ isName name = true ∧
      (∀ c ∈ rest.head?, continuesName c = false) ∧ identifier.Reads text name rest) ∨
    identifier.Fails text := by
  cases text with
  | nil => exact .inr (fails_character (nofun : ∀ c ∈ [].head?, startsName c = false)).bind.rule
  | cons c text =>
      cases starts : startsName c with
      | false => exact .inr (fails_character (by simpa using starts)).bind.rule
      | true =>
          refine .inl ⟨String.ofList (c :: text.takeWhile continuesName),
            text.dropWhile continuesName, ?_, ?_, ?_, ?_⟩
          · simp
          · simp [isName, starts]
          · intro d head
            have stop := List.head?_dropWhile_not continuesName text
            rw [Option.mem_def.mp head] at stop
            exact stop
          · exact ((reads_character starts).bind
              (f := fun first => do
                return String.ofList (first :: (← charactersWhile continuesName)))
              ((reads_charactersWhile continuesName text).bind .pure)).rule

theorem ensures_identifier {start : List Char → Prop} :
    Ensures start identifier fun name _ => isName name = true := by
  refine Ensures.of_texts fun text _ => ?_
  rcases reads_or_fails_identifier text with ⟨name, rest, _, named, _, reads⟩ | fails
  · exact .of_reads reads named
  · exact .of_fails fails

theorem gives_reference : Gives reference fun name => isName name = true :=
  (Ensures.bind Ensures.trivial fun _ => ensures_identifier).rule

theorem ensures_charactersWhile {start : List Char → Prop} (member : Char → Bool) :
    Ensures start (charactersWhile member) fun run _ => run.all member = true :=
  Ensures.of_texts fun text _ => .of_reads (reads_charactersWhile member text) (by simp)

theorem gives_stringLiteral : Gives stringLiteral fun value => isQuotable value = true := by
  refine (Ensures.bind Ensures.trivial fun _ => ?_).rule
  refine (ensures_charactersWhile insideString).rule.bind fun value => ?_
  refine Ensures.of_texts fun text inside => ?_
  exact Ensures.bind Ensures.trivial fun _ => Ensures.pure fun _ _ => by
    simpa [isQuotable] using inside

/-- A tag is not a reserved word: at a settled text the whole name would be read as one. -/
theorem gives_tagStep : Gives (do absent reserved; blanks; return Path.tag (← identifier))
    fun path => path.isPrintable = true := by
  refine Ensures.bind Ensures.absent fun _ => ?_
  refine (Ensures.blanks_of (fun text => ∀ value last, ¬ reserved.Reads text value last)
    fun text given => ?_).bind fun _ => ?_
  · rw [given.1]
    exact given.2
  · refine Ensures.of_texts fun text unreserved => ?_
    rcases reads_or_fails_identifier text with ⟨name, rest, split, named, stops, reads⟩ | fails
    · have isTag : isTagName name = true := by
        rw [isTagName, named, Bool.true_and, Bool.not_eq_true', List.contains_eq_mem,
          decide_eq_false_iff_not]
        intro listed
        exact unreserved () rest (split ▸ reads_reserved listed stops)
      exact .of_reads (reads.bind .pure) isTag
    · exact .of_fails fails.bind

/-! ## Paths and filters -/

/-- The parsers of a nesting level match only with printable paths and filters. -/
structure Grammar.PathLevel.Printable (inner : PathLevel) : Prop where
  path : Gives inner.path fun path => path.isPrintable = true
  filter : Gives inner.filter fun filter => filter.isPrintable = true
  negation : Gives inner.negation fun filter => filter.isPrintable = true

/-- Putting parts together keeps what each of them keeps. -/
theorem foldl_holds {α β : Type} {p : α → Prop} {q : β → Prop} {combine : α → β → α}
    (step : ∀ value next, p value → q next → p (combine value next)) {first : α}
    {others : List β} (given : p first) (parts : ∀ next ∈ others, q next) :
    p (others.foldl combine first) :=
  List.foldlRecOn others combine given fun value given next member =>
    step value next given (parts next member)

namespace Grammar.PathLevel.Printable

variable {inner : PathLevel}

theorem pathAtom (printable : inner.Printable) :
    Gives inner.pathAtom fun path => path.isPrintable = true := by
  refine (Gives.firstOf fun parser member => ?_).rule
  simp only [List.mem_cons, List.not_mem_nil, or_false] at member
  rcases member with rfl | rfl | rfl | rfl | rfl | rfl | rfl
  · exact Gives.rule (Gives.trivial.andThen fun _ _ => Gives.trivial.andThen fun _ _ =>
      .returned _ rfl)
  · exact Gives.rule (.returned _ rfl)
  · exact Gives.rule (.returned _ rfl)
  · exact Gives.rule (.returned _ rfl)
  · exact (Ensures.bind Ensures.trivial fun _ => ensures_identifier.bind fun _ =>
      Ensures.pure fun _ named => named).rule
  · exact (printable.path.enclosed.map fun _ => id).rule
  · exact gives_tagStep.rule

theorem pathFiltered (printable : inner.Printable) :
    Gives inner.pathFiltered fun path => path.isPrintable = true := by
  refine (printable.pathAtom.andThen fun atom given =>
    printable.filter.enclosed.many.map fun filters all => ?_).rule
  refine foldl_holds (p := fun path : Path => path.isPrintable = true)
    (fun path filter given next => ?_) given all
  rw [Path.isPrintable, given, next]
  rfl

theorem pathSteps (printable : inner.Printable) :
    Gives inner.pathSteps fun path => path.isPrintable = true := by
  have further : Gives (do let axis ← axis; blanks; return (axis, ← inner.pathFiltered))
      fun part => part.2.isPrintable = true :=
    Gives.trivial.andThen (f := fun axis => do return (axis, ← inner.pathFiltered))
      fun _ _ => printable.pathFiltered.map fun _ => id
  refine (printable.pathFiltered.andThen fun first given =>
    further.many.map fun parts all => ?_).rule
  refine foldl_holds (p := fun path : Path => path.isPrintable = true)
    (q := fun part : Axis × Path => part.2.isPrintable = true)
    (fun path part given next => ?_) given all
  rw [Path.isPrintable, given, next]
  rfl

theorem outerPath (printable : inner.Printable) :
    Gives inner.outerPath fun path => path.isPrintable = true := by
  refine (printable.pathSteps.separated.map fun read given => ?_).rule
  refine foldl_holds (p := fun path : Path => path.isPrintable = true)
    (fun path next given holds => ?_) given.1 given.2
  rw [Path.isPrintable, given, holds]
  rfl

theorem filterPrimary (printable : inner.Printable) :
    Gives inner.filterPrimary fun filter => filter.isPrintable = true := by
  refine (Gives.firstOf fun parser member => ?_).rule
  simp only [List.mem_cons, List.not_mem_nil, or_false] at member
  rcases member with rfl | rfl | rfl | rfl
  · refine (printable.outerPath.andThen fun path given => Gives.trivial.andThen fun _ _ =>
      gives_stringLiteral.map fun value quotable => ?_).rule
    rw [Filter.isPrintable, given, quotable]
    rfl
  · refine (printable.outerPath.andThen fun left given => Gives.trivial.andThen fun compared _ =>
      printable.outerPath.map fun right also => ?_).rule
    cases compared <;> simp [Filter.isPrintable, given, also]
  · exact (printable.filter.enclosed.andThen fun filter given =>
      .returned (Filter.parenthesized filter) given).rule
  · exact (printable.outerPath.map fun _ => id).rule

theorem outerNegation (printable : inner.Printable) :
    Gives inner.outerNegation fun filter => filter.isPrintable = true := by
  refine (Gives.firstOf fun parser member => ?_).rule
  simp only [List.mem_cons, List.not_mem_nil, or_false] at member
  rcases member with rfl | rfl
  · exact Gives.trivial.andThen fun _ _ => printable.negation.map fun _ => id
  · exact printable.filterPrimary

theorem filterAnd (printable : inner.Printable) :
    Gives inner.filterAnd fun filter => filter.isPrintable = true := by
  refine (printable.outerNegation.separated.map fun read given => ?_).rule
  refine foldl_holds (p := fun filter : Filter => filter.isPrintable = true)
    (fun filter next given holds => ?_) given.1 given.2
  rw [Filter.isPrintable, given, holds]
  rfl

theorem outerFilter (printable : inner.Printable) :
    Gives inner.outerFilter fun filter => filter.isPrintable = true := by
  refine (printable.filterAnd.separated.map fun read given => ?_).rule.rule
  refine foldl_holds (p := fun filter : Filter => filter.isPrintable = true)
    (fun filter next given holds => ?_) given.1 given.2
  rw [Filter.isPrintable, given, holds]
  rfl

end Grammar.PathLevel.Printable

theorem pathLevel_printable : (level : Nat) → (pathLevel level).Printable
  | 0 => ⟨.fail, .fail, .fail⟩
  | level + 1 =>
      have inner := pathLevel_printable level
      ⟨inner.outerPath, inner.outerFilter, inner.outerNegation⟩

/-! ## Decisions of the path rules -/

namespace Grammar.Parser.Decides

variable {α : Type} {parser : Parser α}

theorem map {β : Type} {f : α → β} (decides : Decides parser) :
    Decides (do return f (← parser)) :=
  decides.bind fun _ => pure

theorem andThen {β : Type} {f : α → Parser β} (first : Decides parser)
    (second : ∀ value, Decides (f value)) :
    Decides (do let value ← parser; Parser.blanks; f value) :=
  first.bind fun value => blanks.bind fun _ => second value

theorem enclosed {opening closing : String} (decides : Decides parser) :
    Decides (Grammar.enclosed opening parser closing) :=
  (literal opening).andThen fun _ => decides.andThen fun _ => (literal closing).bind fun _ => pure

theorem identifier : Decides Grammar.identifier :=
  ((character _).bind fun _ => (charactersWhile _).bind fun _ => pure).rule

theorem stringLiteral : Decides Grammar.stringLiteral :=
  ((literal _).bind fun _ => (charactersWhile _).rule.bind fun _ =>
    (literal _).bind fun _ => pure).rule

theorem word (spellings : List String) : Decides (Grammar.word spellings) := by
  refine (firstOf fun parser member => ?_).bind fun _ => (character _).absent
  obtain ⟨spelling, _, rfl⟩ := List.mem_map.mp member
  exact literal spelling

theorem keyword (name : Rule) (spelling : String) : Decides (Grammar.keyword name spelling) :=
  (word _).rule

theorem axis : Decides Grammar.axis := by
  refine firstOf fun parser member => ?_
  simp only [List.mem_cons, List.not_mem_nil, or_false] at member
  rcases member with rfl | rfl <;> exact ((literal _).bind fun _ => pure).rule

theorem valueOperator : Decides Grammar.valueOperator := by
  refine (firstOf fun parser member => ?_).rule
  simp only [List.mem_cons, List.not_mem_nil, or_false] at member
  rcases member with rfl | rfl
  · exact literal _
  · exact keyword _ _

theorem comparison : Decides Grammar.comparison := by
  refine firstOf fun parser member => ?_
  simp only [List.mem_cons, List.not_mem_nil, or_false] at member
  rcases member with rfl | rfl
  · refine ((firstOf fun parser member => ?_).bind fun _ => pure).rule
    simp only [List.mem_cons, List.not_mem_nil, or_false] at member
    rcases member with rfl | rfl
    · exact literal _
    · exact keyword _ _
  · exact valueOperator.bind fun _ => pure

end Grammar.Parser.Decides

/-- The parsers of a nesting level always do the same at a text. -/
structure Grammar.PathLevel.Decided (inner : PathLevel) : Prop where
  path : Decides inner.path
  filter : Decides inner.filter
  negation : Decides inner.negation

namespace Grammar.PathLevel.Decided

variable {inner : PathLevel}

theorem pathAtom (decided : inner.Decided) : Decides inner.pathAtom := by
  refine (Decides.firstOf fun parser member => ?_).rule
  simp only [List.mem_cons, List.not_mem_nil, or_false] at member
  rcases member with rfl | rfl | rfl | rfl | rfl | rfl | rfl
  · exact ((Decides.literal _).andThen fun _ => (Decides.literal _).andThen fun _ =>
      (Decides.literal _).map (f := fun _ => Path.text)).rule
  · exact ((Decides.literal _).map (f := fun _ => Path.parent)).rule
  · exact ((Decides.literal _).map (f := fun _ => Path.current)).rule
  · exact ((Decides.literal _).map (f := fun _ => Path.wildcard)).rule
  · exact ((Decides.literal _).bind fun _ => Decides.identifier.map).rule
  · exact decided.path.enclosed.map.rule
  · exact ((Decides.word _).rule.absent.andThen fun _ => Decides.identifier.map).rule

theorem pathFiltered (decided : inner.Decided) : Decides inner.pathFiltered :=
  (decided.pathAtom.andThen fun _ => decided.filter.enclosed.many.map).rule

theorem furtherStep (decided : inner.Decided) :
    Decides (do let axis ← axis; blanks; return (axis, ← inner.pathFiltered)) :=
  Decides.axis.andThen fun _ => decided.pathFiltered.map

theorem pathSteps (decided : inner.Decided) : Decides inner.pathSteps :=
  (decided.pathFiltered.andThen fun _ => decided.furtherStep.many.map).rule

theorem outerPath (decided : inner.Decided) : Decides inner.outerPath :=
  (Decides.separated (Decides.literal _) decided.pathSteps).map.rule

theorem filterPrimary (decided : inner.Decided) : Decides inner.filterPrimary := by
  refine (Decides.firstOf fun parser member => ?_).rule
  simp only [List.mem_cons, List.not_mem_nil, or_false] at member
  rcases member with rfl | rfl | rfl | rfl
  · exact (decided.outerPath.andThen fun _ => Decides.valueOperator.andThen fun _ =>
      Decides.stringLiteral.map).rule
  · exact (decided.outerPath.andThen fun _ => Decides.comparison.andThen fun _ =>
      decided.outerPath.map).rule
  · refine (decided.filter.enclosed.andThen fun _ =>
      (Decides.firstOf fun parser member => ?_).absent.map
      (f := fun _ => Filter.parenthesized _)).rule
    simp only [List.mem_cons, List.not_mem_nil, or_false] at member
    rcases member with rfl | rfl | rfl
    · exact Decides.axis.map
    · exact Decides.literal _
    · exact Decides.literal _
  · exact decided.outerPath.map.rule

theorem outerNegation (decided : inner.Decided) : Decides inner.outerNegation := by
  refine (Decides.firstOf fun parser member => ?_).rule
  simp only [List.mem_cons, List.not_mem_nil, or_false] at member
  rcases member with rfl | rfl
  · exact (Decides.keyword _ _).andThen fun _ => decided.negation.map
  · exact decided.filterPrimary

theorem outerFilter (decided : inner.Decided) : Decides inner.outerFilter :=
  (Decides.separated (Decides.keyword _ _)
    (Decides.separated (Decides.keyword _ _) decided.outerNegation).map.rule).map.rule.rule

end Grammar.PathLevel.Decided

theorem pathLevel_decided : (level : Nat) → (pathLevel level).Decided
  | 0 => ⟨.fail, .fail, .fail⟩
  | level + 1 =>
      have inner := pathLevel_decided level
      ⟨inner.outerPath, inner.outerFilter, inner.outerNegation⟩

/-! ## Greed -/

theorem consumes_axis : Consumes axis := by
  intro text sign rest reads
  by_cases double : "//".toList <+: text
  · obtain ⟨last, rfl⟩ := double
    obtain ⟨_, rfl⟩ := reads.unique (.orElse_left ((reads_literal "//" last).bind
      (f := fun _ => Pure.pure Axis.descendantOrSelf) .pure).rule)
    rw [List.length_append]
    exact Nat.lt_add_of_pos_left (by decide)
  · by_cases single : "/".toList <+: text
    · obtain ⟨last, rfl⟩ := single
      obtain ⟨_, rfl⟩ := reads.unique (.orElse_right (fails_literal double).bind.rule
        (.orElse_left ((reads_literal "/" last).bind
          (f := fun _ => Pure.pure Axis.child) .pure).rule))
      rw [List.length_append]
      exact Nat.lt_add_of_pos_left (by decide)
    · have fails : axis.Fails text := .orElse (fails_literal double).bind.rule
        (.orElse (fails_literal single).bind.rule (fails_fail _))
      exact absurd reads fails.not_reads

variable {level : Nat}

theorem decides_furtherStep : Decides (furtherStep level) :=
  (pathLevel_decided level).furtherStep

theorem consumes_furtherStep : Consumes (furtherStep level) := by
  intro text part rest reads
  rcases Decides.axis text with ⟨sign, between, _, readsSign⟩ | fails
  · have shorter := consumes_axis readsSign
    rcases (Decides.blanks.bind fun _ => (pathLevel_decided level).pathFiltered.map
      (f := fun path => (sign, path))) between with ⟨value, last, suffix, readsPath⟩ | fails
    · obtain ⟨_, rfl⟩ := reads.unique (readsSign.bind readsPath)
      have shorterStill := suffix.length_le
      omega
    · exact absurd reads (readsSign.bind_fails fails).not_reads
  · exact absurd reads fails.bind.not_reads

/-- Behind the steps of a path no further step is left to be read. -/
theorem ensures_pathSteps : Ensures Settled (pathLevel level).pathSteps
    fun _ rest => (furtherStep level).Fails (skip rest) := by
  refine (Ensures.bind Ensures.trivial fun first => Ensures.blanks.bind fun _ => ?_).rule
  refine Ensures.bind ?_
    fun parts => Ensures.pure fun _ => id
  refine Ensures.of_texts fun text settled => ?_
  obtain ⟨parts, rest, reads, fails⟩ := reads_many decides_furtherStep consumes_furtherStep settled
  exact .of_reads reads fails

theorem ensures_outerPath : Ensures Settled (pathLevel level).outerPath
    fun _ rest => (furtherStep level).Fails (skip rest) := by
  have item : Ensures Settled (do comma; blanks; (pathLevel level).pathSteps)
      fun _ rest => (furtherStep level).Fails (skip rest) :=
    Ensures.bind Ensures.trivial fun _ => Ensures.blanks.bind fun _ => ensures_pathSteps
  refine Ensures.rule (Ensures.bind (Ensures.bind ensures_pathSteps fun first => ?_) fun _ =>
    Ensures.pure fun _ => id)
  refine (Ensures.blanks_of (fun text => Settled text ∧
    (furtherStep level).Fails (skip text)) fun text fails => ?_).bind fun _ =>
      (Ensures.many item).bind fun _ => Ensures.pure fun _ => id
  refine ⟨settled_skip text, ?_⟩
  rw [settled_skip text]
  exact fails

/-- Where no further step is left, no path is left behind an axis. -/
theorem fails_axis_path {text : List Char} (fails : (furtherStep level).Fails text) :
    Fails (do let axis ← axis; blanks; return (axis, ← (pathLevel level).outerPath)) text := by
  rcases Decides.axis text with ⟨sign, between, _, readsSign⟩ | noAxis
  · refine readsSign.bind_fails ((reads_blanks between).bind_fails ?_)
    rcases (pathLevel_decided level).pathFiltered (skip between) with
      ⟨path, rest, _, readsPath⟩ | noPath
    · refine absurd (readsSign.bind ((reads_blanks between).bind (readsPath.bind
        (f := fun path => Pure.pure (sign, path)) .pure))) fails.not_reads
    · exact noPath.bind.rule.bind.bind.rule.bind
  · exact noAxis.bind

/-! ## Queries and conditions -/

/-- The parsers of a nesting level match only with printable queries and conditions, and its
paths leave no further step. -/
structure Grammar.QueryLevel.Printable (inner : QueryLevel) : Prop where
  path : Gives inner.path fun path => path.isPrintable = true
  stops : Ensures Settled inner.path fun _ rest =>
    Fails (do let axis ← axis; blanks; return (axis, ← inner.path)) (skip rest)
  query : Gives inner.query fun query => query.isPrintable = true
  single : Gives inner.single fun query => query.isPrintable = true
  condition : Gives inner.condition fun condition => condition.isPrintable = true
  negation : Gives inner.negation fun condition => condition.isPrintable = true

namespace Grammar.QueryLevel.Printable

variable {inner : QueryLevel}

/-! ### Clauses -/

theorem inBinding (printable : inner.Printable) : Gives inner.inBinding fun binding =>
    isName binding.name = true ∧ binding.source.isPrintable = true :=
  (gives_reference.andThen fun _ named => Gives.trivial.andThen fun _ _ =>
    printable.single.map fun _ given => ⟨named, given⟩).rule

theorem letBinding (printable : inner.Printable) : Gives inner.letBinding fun binding =>
    isName binding.name = true ∧ binding.source.isPrintable = true :=
  (gives_reference.andThen fun _ named => Gives.trivial.andThen fun _ _ =>
    printable.single.map fun _ given => ⟨named, given⟩).rule

/-- Bindings that can be read back, of which there are some. -/
def AreBound (bindings : List Binding) : Prop :=
  (!bindings.isEmpty) = true ∧ Binding.arePrintable bindings = true

theorem arePrintable_of_forall : (bindings : List Binding) →
    (∀ binding ∈ bindings, isName binding.name = true ∧ binding.source.isPrintable = true) →
      Binding.arePrintable bindings = true
  | [], _ => rfl
  | ⟨name, source⟩ :: rest, all => by
      obtain ⟨⟨named, printable⟩, others⟩ := List.forall_mem_cons.mp all
      have later := arePrintable_of_forall rest others
      rw [Query.isPrintable] at printable
      rw [Binding.arePrintable] at later
      rw [Binding.arePrintable, Binding.arePrintableWith, named, printable, later]
      rfl

theorem bindings {binding : Parser Binding} (gives : Gives binding fun binding =>
    isName binding.name = true ∧ binding.source.isPrintable = true) :
    Gives (QueryLevel.bindings binding) AreBound :=
  gives.separated.map fun read given =>
    ⟨rfl, arePrintable_of_forall (read.1 :: read.2) (List.forall_mem_cons.mpr given)⟩

theorem forClause (printable : inner.Printable) : Gives inner.forClause AreBound :=
  (Gives.trivial.andThen fun _ _ => bindings printable.inBinding).rule

theorem letClause (printable : inner.Printable) : Gives inner.letClause AreBound :=
  (Gives.trivial.andThen fun _ _ => bindings printable.letBinding).rule

theorem whereClause (printable : inner.Printable) :
    Gives inner.whereClause fun condition => condition.isPrintable = true :=
  (Gives.trivial.andThen fun _ _ => printable.condition).rule

theorem returnClause (printable : inner.Printable) :
    Gives inner.returnClause fun query => query.isPrintable = true :=
  (Gives.trivial.andThen fun _ _ => printable.query).rule

theorem flwr (printable : inner.Printable) :
    Gives inner.flwr fun query => query.isPrintable = true := by
  refine (printable.forClause.andThen fun bindings bound =>
    printable.letClause.optional.andThen fun lets boundLets =>
      printable.whereClause.optional.andThen fun condition given =>
        printable.returnClause.map fun result also => ?_).rule
  have letsPrintable : Binding.arePrintable (lets.getD []) = true := by
    cases lets with
    | none => rfl
    | some lets => exact (boundLets lets rfl).2
  have conditionPrintable :
      Condition.isPrintableIfPresent (fun _ => true) (fun base => !base.endsInPath)
        condition = true := by
    cases condition with
    | none => rfl
    | some condition => exact given condition rfl
  rw [Query.isPrintable] at also ⊢
  rw [Binding.arePrintable] at letsPrintable
  have all := bound.2
  rw [Binding.arePrintable] at all
  rw [Query.isPrintableWith, bound.1, all, letsPrintable, conditionPrintable, also]
  rfl

theorem letIn (printable : inner.Printable) :
    Gives inner.letIn fun query => query.isPrintable = true := by
  refine (printable.letClause.andThen fun bindings bound =>
    printable.query.map fun body given => ?_).rule
  have all := bound.2
  rw [Binding.arePrintable] at all
  rw [Query.isPrintable] at given ⊢
  rw [Query.isPrintableWith, bound.1, all, given]
  rfl

/-! ### Primary queries -/

theorem tagList : Gives QueryLevel.tagList fun tags => tags.all isName = true := by
  refine (Gives.enclosed (Gives.optional (Gives.separated
    (Gives.of_anywhere ensures_identifier)))).map (fun tags named => ?_) |>.rule
  cases tags with
  | none => rfl
  | some tags =>
      obtain ⟨first, others⟩ := tags
      exact List.all_eq_true.mpr (List.forall_mem_cons.mpr (named _ rfl))

theorem join (printable : inner.Printable) :
    Gives inner.join fun query => query.isPrintable = true ∧ query.endsInPath = false := by
  refine (Gives.trivial.andThen fun _ _ => Gives.trivial.andThen fun _ _ =>
    printable.single.andThen fun left given => Gives.trivial.andThen fun _ _ =>
      printable.single.andThen fun right also => Gives.trivial.andThen fun _ _ =>
        tagList.andThen fun leftTags named => Gives.trivial.andThen fun _ _ =>
          tagList.andThen fun rightTags namedToo =>
            Gives.returned (Query.join left right leftTags rightTags) ⟨?_, rfl⟩).rule
  rw [Query.isPrintable] at given also ⊢
  rw [Query.isPrintableWith, given, also, named, namedToo]
  rfl

theorem element (printable : inner.Printable) :
    Gives inner.element fun query => query.isPrintable = true ∧ query.endsInPath = false := by
  refine (Gives.trivial.andThen fun _ _ => (Gives.of_anywhere ensures_identifier).andThen
    fun opening named => Gives.trivial.andThen fun _ _ => printable.query.enclosed.andThen
      fun body given => Gives.trivial.andThen fun _ _ => Gives.trivial.andThen fun _ _ =>
        Gives.trivial.andThen fun closing _ => ?_).rule
  refine Ensures.bind Ensures.trivial fun _ => Ensures.bind Ensures.trivial fun _ =>
    Ensures.pure fun _ _ => ⟨?_, rfl⟩
  rw [Query.isPrintable] at given ⊢
  rw [Query.isPrintableWith, named, given]
  rfl

theorem documentPath (printable : inner.Printable) :
    Ensures Settled (documentPath inner.path) fun path rest => path.isPrintable = true ∧
      Fails (do let axis ← axis; blanks; return (axis, ← inner.path)) (skip rest) := by
  have call : Gives documentCall fun document => isQuotable document = true :=
    (Gives.trivial.andThen fun _ _ => gives_stringLiteral.enclosed).rule
  refine Ensures.rule (call.andThen_ensures fun document quotable =>
    Gives.trivial.andThen_ensures fun axis _ => ?_)
  refine Ensures.bind (printable.path.and printable.stops) fun path =>
    Ensures.pure fun rest given => ?_
  rw [DocumentPath.isPrintable, quotable, given.1]
  exact ⟨rfl, given.2⟩

/-- Behind a primary query that ends in a path no further step is left. -/
theorem queryPrimary (printable : inner.Printable) :
    Ensures Settled inner.queryPrimary fun query rest => query.isPrintable = true ∧
      (query.endsInPath = true →
        Fails (do let axis ← axis; blanks; return (axis, ← inner.path)) (skip rest)) := by
  have closed : ∀ {parser : Parser Query},
      Gives parser (fun query => query.isPrintable = true ∧ query.endsInPath = false) →
        Ensures Settled parser fun query rest => query.isPrintable = true ∧
          (query.endsInPath = true →
            Fails (do let axis ← axis; blanks; return (axis, ← inner.path)) (skip rest)) :=
    fun gives => Ensures.mono gives (fun _ => id) fun query rest given =>
      ⟨given.1, fun path => by rw [given.2] at path; cases path⟩
  refine Ensures.rule (Ensures.firstOf fun parser member => ?_)
  simp only [List.mem_cons, List.not_mem_nil, or_false] at member
  rcases member with rfl | rfl | rfl | rfl | rfl | rfl
  · exact Ensures.bind printable.documentPath fun path => Ensures.pure fun rest given =>
      ⟨given.1, fun _ => given.2⟩
  · exact closed (gives_reference.map fun name named => ⟨named, rfl⟩)
  · exact closed (gives_stringLiteral.map fun value quotable => ⟨quotable, rfl⟩)
  · exact closed printable.join
  · exact closed printable.element
  · exact closed (printable.query.enclosed.map fun query given => ⟨given, rfl⟩).rule

theorem queryPath (printable : inner.Printable) :
    Gives inner.queryPath fun query => query.isPrintable = true := by
  refine Ensures.rule (Ensures.bind printable.queryPrimary fun base => ?_)
  refine (Ensures.blanks_of (fun text => Settled text ∧ base.isPrintable = true ∧
    (base.endsInPath = true →
      Fails (do let axis ← axis; blanks; return (axis, ← inner.path)) text)) fun text given =>
        ⟨settled_skip text, given⟩).bind fun _ => ?_
  refine Ensures.of_texts fun text given => ?_
  obtain ⟨settled, basePrintable, stops⟩ := given
  have part : Gives (do let axis ← axis; blanks; return (axis, ← inner.path))
      fun part => part.2.isPrintable = true :=
    Gives.trivial.andThen (f := fun axis => do return (axis, ← inner.path)) fun _ _ =>
      printable.path.map fun _ => id
  rw [Query.isPrintable] at basePrintable
  cases path : base.endsInPath with
  | true =>
      have noStep := (stops path).optional
      exact Ensures.of_reads (noStep.bind .pure) basePrintable
  | false =>
      have continued := part.optional
      refine Ensures.mono (continued.map fun continuation given => ?_)
        (fun _ same => by rw [same]; exact settled) fun _ _ => id
      cases continuation with
      | none => exact basePrintable
      | some step =>
          rw [Query.isPrintable, Query.isPrintableWith, basePrintable, path, given step rfl]
          rfl

theorem outerSingle (printable : inner.Printable) :
    Gives inner.outerSingle fun query => query.isPrintable = true := by
  refine (Gives.firstOf fun parser member => ?_).rule
  simp only [List.mem_cons, List.not_mem_nil, or_false] at member
  rcases member with rfl | rfl | rfl
  · exact printable.flwr
  · exact printable.letIn
  · exact printable.queryPath

theorem outerQuery (printable : inner.Printable) :
    Gives inner.outerQuery fun query => query.isPrintable = true := by
  refine (printable.outerSingle.separated.map fun read given => ?_).rule
  refine foldl_holds (p := fun query : Query => query.isPrintable = true)
    (fun query next given holds => ?_) given.1 given.2
  rw [Query.isPrintable] at given holds ⊢
  rw [Query.isPrintableWith, given, holds]
  rfl

/-! ### Conditions -/

theorem conditionPrimary (printable : inner.Printable) :
    Gives inner.conditionPrimary fun condition => condition.isPrintable = true := by
  refine (Gives.firstOf fun parser member => ?_).rule
  simp only [List.mem_cons, List.not_mem_nil, or_false] at member
  rcases member with rfl | rfl | rfl | rfl
  · exact (Gives.trivial.andThen fun _ _ => printable.query.enclosed.map fun _ => id).rule
  · refine (Gives.trivial.andThen fun _ _ => (bindings printable.inBinding).andThen
      fun bindings bound => Gives.trivial.andThen fun _ _ =>
        printable.condition.map fun body given => ?_).rule
    have all := bound.2
    rw [Binding.arePrintable] at all
    rw [Condition.isPrintable] at given ⊢
    rw [Condition.isPrintableWith, bound.1, all, given]
    rfl
  · refine (printable.outerSingle.andThen fun left given => Gives.trivial.andThen
      fun compared _ => printable.outerSingle.map fun right also => ?_).rule
    rw [Query.isPrintable] at given also
    cases compared <;>
      simp only [Condition.isPrintable, Condition.isPrintableWith, given, also, Bool.and_self]
  · exact (printable.condition.enclosed.map fun _ => id).rule

theorem outerNegation (printable : inner.Printable) :
    Gives inner.outerNegation fun condition => condition.isPrintable = true := by
  refine (Gives.firstOf fun parser member => ?_).rule
  simp only [List.mem_cons, List.not_mem_nil, or_false] at member
  rcases member with rfl | rfl
  · exact Gives.trivial.andThen fun _ _ => printable.negation.map fun _ => id
  · exact printable.conditionPrimary

theorem conditionAnd (printable : inner.Printable) :
    Gives inner.conditionAnd fun condition => condition.isPrintable = true := by
  refine (printable.outerNegation.separated.map fun read given => ?_).rule
  refine foldl_holds (p := fun condition : Condition => condition.isPrintable = true)
    (fun condition next given holds => ?_) given.1 given.2
  rw [Condition.isPrintable] at given holds ⊢
  rw [Condition.isPrintableWith, given, holds]
  rfl

theorem outerCondition (printable : inner.Printable) :
    Gives inner.outerCondition fun condition => condition.isPrintable = true := by
  refine (printable.conditionAnd.separated.map fun read given => ?_).rule.rule
  refine foldl_holds (p := fun condition : Condition => condition.isPrintable = true)
    (fun condition next given holds => ?_) given.1 given.2
  rw [Condition.isPrintable] at given holds ⊢
  rw [Condition.isPrintableWith, given, holds]
  rfl

end Grammar.QueryLevel.Printable

theorem queryLevel_printable (room : Nat) : (level : Nat) →
    (queryLevel (pathLevel (room + 1)).path level).Printable
  | 0 =>
      ⟨(pathLevel_printable (room + 1)).path, ensures_outerPath.mono (fun _ => id)
        (fun _ _ => fails_axis_path), .fail, .fail, .fail, .fail⟩
  | level + 1 =>
      have inner := queryLevel_printable room level
      ⟨inner.path, inner.stops, inner.outerQuery, inner.outerSingle, inner.outerCondition,
        inner.outerNegation⟩

/-! ## Whole texts -/

theorem run_holds {α : Type} {name : Rule} {parser : Parser α} {holds : α → Prop}
    (gives : Gives parser holds) {text : String} {value : α}
    (run : (Parser.whole name parser).run text = .ok value) : holds value := by
  have whole : Ensures (fun _ => True) (Parser.whole name parser) fun value _ => holds value := by
    refine Ensures.rule (Ensures.blanks.bind fun _ => ?_)
    exact gives.andThen_ensures fun value given => Ensures.bind Ensures.trivial fun _ =>
      Ensures.pure fun _ _ => given
  rw [Parser.run] at run
  split at run
  · next found later _ matched =>
      split at run
      · cases run
        exact whole _ _ _ _ _ _ trivial matched
      · cases run
  · cases run

/-- What a text is read as is printable. -/
theorem Query.isPrintable_of_parse {text : String} {query : Query}
    (parsed : Query.parse text = .ok query) : query.isPrintable = true :=
  run_holds (queryLevel_printable text.length (text.length + 1)).query parsed

theorem DocumentPath.isPrintable_of_parse {text : String} {path : DocumentPath}
    (parsed : DocumentPath.parse text = .ok path) : path.isPrintable = true := by
  have printable := (queryLevel_printable text.length 0).documentPath
  exact run_holds (printable.mono (fun _ => id) fun _ _ => And.left) parsed

end TreeQuery
