import TreeQuery.Proofs.Grammar.Steps

/-!
# Reading printed paths

The tokens of a printable path are read as the path with its parentheses explicit, and the same
holds of filters (`Path.readable`, `Filter.readable`).  Both are read at every nesting level
that is at least the number of their tokens, in front of any tokens that cannot continue them.

A tree that nests to the left is read by the rule for lists of its parts.  `Path.Readable`
therefore says for each rule of the grammar what it does at the tokens of the path, and each
constructor of paths has a lemma that proves it from the parts.

Parentheses need care in filters.  An opening parenthesis there can belong to a path, whose
parentheses are then continued by a step, a filter or a comma, or to a filter; the grammar
tries comparisons first, then parentheses of a filter, then a path.
-/

set_option autoImplicit false

namespace TreeQuery

open TreeQuery.Grammar.Parser TreeQuery.Grammar

variable {level : Nat} {tokens rest : List String}

/-! ## Parts of a path -/

/-- A filter in brackets behind a step. -/
def bracketed (level : Nat) : Parser Filter := enclosed "[" (pathLevel level).filter "]"

/-- A further step behind a path. -/
def furtherStep (level : Nat) : Parser (Axis × Path) := do
  let axis ← axis
  blanks
  return (axis, ← (pathLevel level).pathFiltered)

/-- A further path behind a comma. -/
def furtherPath (level : Nat) : Parser Path := do
  comma
  blanks
  (pathLevel level).pathSteps

/-- A path with a further step. -/
def Path.stepBy (left : Path) (part : Axis × Path) : Path := .step left part.1 part.2

/-- What the rules of paths do at the tokens of a path, at some nesting level. -/
structure Path.Nests (path : Path) (level : Nat) : Prop where
  atom : path.tightness = 3 → ∀ rest, EndsStep rest →
    Takes (pathLevel level).pathAtom (path.tokens ++ rest) path.explicit rest
  filtered : 2 ≤ path.tightness → ∀ rest, EndsStep rest →
    Begins (pathLevel level).pathAtom (bracketed level) .filtered (path.tokens ++ rest)
      path.explicit rest
  steps : 1 ≤ path.tightness → ∀ rest, EndsStep rest → lead rest ≠ some '[' →
    Begins (pathLevel level).pathFiltered (furtherStep level) .stepBy (path.tokens ++ rest)
      path.explicit rest
  pairs : ∀ rest, EndsStep rest → lead rest ≠ some '[' → lead rest ≠ some '/' →
    Begins (pathLevel level).pathSteps (furtherPath level) .pair (path.tokens ++ rest)
      path.explicit rest

theorem takes_pathFiltered {value : Path}
    (begins : Begins (pathLevel level).pathAtom (bracketed level) .filtered tokens value rest)
    (noFilter : lead rest ≠ some '[') :
    Takes (pathLevel level).pathFiltered tokens value rest :=
  (begins.takes ((startsIn_enclosed (c := '[') rfl).refuses (by simpa using noFilter))).rule

theorem takes_pathSteps {value : Path}
    (begins : Begins (pathLevel level).pathFiltered (furtherStep level) .stepBy tokens value rest)
    (noAxis : lead rest ≠ some '/') :
    Takes (pathLevel level).pathSteps tokens value rest :=
  (begins.takes (startsIn_axis.bind.refuses (by simpa using noAxis))).rule

theorem takes_outerPath {value : Path}
    (begins : Begins (pathLevel level).pathSteps (furtherPath level) .pair tokens value rest)
    (noPair : Refuses (furtherPath level) rest) :
    Takes (pathLevel level).outerPath tokens value rest :=
  (begins.separated noPair).rule

namespace Path

variable {path : Path}

theorem Nests.takes_filtered (nests : path.Nests level) (tight : 2 ≤ path.tightness)
    (ends : EndsStep rest) (noFilter : lead rest ≠ some '[') :
    Takes (pathLevel level).pathFiltered (path.tokens ++ rest) path.explicit rest :=
  takes_pathFiltered (nests.filtered tight rest ends) noFilter

theorem Nests.takes_steps (nests : path.Nests level) (tight : 1 ≤ path.tightness)
    (ends : EndsStep rest) (noFilter : lead rest ≠ some '[') (noAxis : lead rest ≠ some '/') :
    Takes (pathLevel level).pathSteps (path.tokens ++ rest) path.explicit rest :=
  takes_pathSteps (nests.steps tight rest ends noFilter) noAxis

theorem Nests.takes (nests : path.Nests level) (ends : EndsPath rest) :
    Takes (pathLevel level).outerPath (path.tokens ++ rest) path.explicit rest :=
  takes_outerPath (nests.pairs rest ends.toEndsStep ends.noFilter ends.noAxis)
    (ends.noPair level)

/-! A path that a rule reads is a first part for every looser rule. -/

theorem Nests.ofPairs (loose : path.tightness = 0)
    (pairs : ∀ rest, EndsStep rest → lead rest ≠ some '[' → lead rest ≠ some '/' →
      Begins (pathLevel level).pathSteps (furtherPath level) .pair (path.tokens ++ rest)
        path.explicit rest) : path.Nests level where
  atom tight := absurd tight (by omega)
  filtered tight := absurd tight (by omega)
  steps tight := absurd tight (by omega)
  pairs := pairs

theorem Nests.ofSteps (tight : path.tightness = 1)
    (steps : ∀ rest, EndsStep rest → lead rest ≠ some '[' →
      Begins (pathLevel level).pathFiltered (furtherStep level) .stepBy (path.tokens ++ rest)
        path.explicit rest) : path.Nests level where
  atom tighter := absurd tighter (by omega)
  filtered tighter := absurd tighter (by omega)
  steps _ := steps
  pairs rest ends noFilter noAxis := (takes_pathSteps (steps rest ends noFilter) noAxis).begins

theorem Nests.ofFiltered (tight : path.tightness = 2)
    (filtered : ∀ rest, EndsStep rest →
      Begins (pathLevel level).pathAtom (bracketed level) .filtered (path.tokens ++ rest)
        path.explicit rest) : path.Nests level where
  atom tighter := absurd tighter (by omega)
  filtered _ := filtered
  steps _ rest ends noFilter := (takes_pathFiltered (filtered rest ends) noFilter).begins
  pairs rest ends noFilter noAxis :=
    (takes_pathSteps (takes_pathFiltered (filtered rest ends) noFilter).begins noAxis).begins

theorem Nests.ofAtom (atom : ∀ rest, EndsStep rest →
      Takes (pathLevel level).pathAtom (path.tokens ++ rest) path.explicit rest) :
    path.Nests level where
  atom _ := atom
  filtered _ rest ends := (atom rest ends).begins
  steps _ rest ends noFilter := (takes_pathFiltered (atom rest ends).begins noFilter).begins
  pairs rest ends noFilter noAxis :=
    (takes_pathSteps (takes_pathFiltered (atom rest ends).begins noFilter).begins noAxis).begins

end Path

/-! ## Parentheses in filters -/

/-- Parentheses that belong to a filter: nothing continues them as a path. -/
def filterParentheses (level : Nat) : Parser Filter := do
  let filter ← enclosed "(" (pathLevel level).filter ")"
  blanks
  absent (firstOf [do let _ ← axis, literal "[", comma])
  return .parenthesized filter

/-- Tokens that continue a path behind its parentheses. -/
inductive Continues : List String → Prop where
  | step (axis : Axis) (rest : List String) : lead rest ≠ some '/' →
      Continues (axis.separator :: rest)
  | filter (rest : List String) : Continues ("[" :: rest)
  | pair (rest : List String) : Continues ("," :: rest)

theorem refuses_axis (differs : lead tokens ≠ some '/') :
    Refuses (do let _ ← axis) tokens :=
  startsIn_axis.bind.refuses (by simpa using differs)

theorem refuses_noContinuation (continues : Continues tokens) :
    Refuses (absent (firstOf [do let _ ← axis, literal "[", comma])) tokens := by
  cases continues with
  | step axis rest differs =>
      exact ((takes_axis axis differs).return (f := fun _ => ())).firstOf.absent
  | filter rest =>
      exact (Takes.firstOf_cons (refuses_axis (by simp)) (takes_literal "[" rest).firstOf).absent
  | pair rest =>
      refine (Takes.firstOf_cons (refuses_axis (by simp)) (.firstOf_cons ?_
        (takes_literal "," rest).firstOf)).absent
      exact (startsIn_literal (c := '[') rfl).refuses (by simp)

theorem EndsFilter.takes_noContinuation (ends : EndsFilter tokens) :
    Takes (absent (firstOf [do let _ ← axis, literal "[", comma])) tokens () tokens := by
  refine (Refuses.firstOf fun parser member => ?_).absent
  simp only [List.mem_cons, List.not_mem_nil, or_false] at member
  rcases member with rfl | rfl | rfl
  · exact refuses_axis (ends.lead_ne (by decide))
  · exact (startsIn_literal (c := '[') rfl).refuses (by simpa using ends.lead_ne (by decide))
  · exact startsIn_comma.refuses (by simpa using ends.lead_ne (by decide))

theorem takes_filterParentheses {value : Filter}
    (takes : Takes (pathLevel level).filter tokens value (")" :: rest)) (ends : EndsFilter rest) :
    Takes (filterParentheses level) ("(" :: tokens) (.parenthesized value) rest :=
  takes.enclosed.andThen (f := fun filter => do
      absent (firstOf [do let _ ← axis, literal "[", comma])
      return Filter.parenthesized filter)
    (ends.takes_noContinuation.return (f := fun _ => Filter.parenthesized value))

theorem refuses_filterParentheses_of_continues {value : Filter}
    (takes : Takes (pathLevel level).filter tokens value (")" :: rest))
    (continues : Continues rest) :
    Refuses (filterParentheses level) ("(" :: tokens) :=
  takes.enclosed.andThen_refuses (f := fun filter => do
      absent (firstOf [do let _ ← axis, literal "[", comma])
      return Filter.parenthesized filter)
    (refuses_noContinuation continues).bind

theorem refuses_filterParentheses_of_lead (differs : lead tokens ≠ some '(') :
    Refuses (filterParentheses level) tokens :=
  (startsIn_enclosed (c := '(') rfl).bind.refuses (by simpa using differs)

/-- Where no comparison is left behind the longest path, parentheses and paths are left of the
simple filters. -/
theorem takes_filterPrimary {value : Filter}
    (uncompared : (∃ path between, Takes (pathLevel level).outerPath tokens path between ∧
      EndsFilter between) ∨ Refuses (pathLevel level).outerPath tokens)
    (takes : Takes (firstOf [
      rule .filterParentheses (filterParentheses level),
      rule .filterPath do
        return Filter.path (← (pathLevel level).outerPath)]) tokens value rest) :
    Takes (pathLevel level).filterPrimary tokens value rest := by
  rcases uncompared with ⟨path, between, takesPath, ends⟩ | refuses
  · have noSign : ∀ c ∈ ['=', 'i', 'e'], lead between ≠ some c := by
      intro c sign
      have others : ∀ c ∈ ['=', 'i', 'e'], c ∉ [']', ')', 'a', 'o'] := by simp
      exact ends.lead_ne (others c sign)
    refine Takes.rule (.firstOf_cons ?_ (.firstOf_cons ?_ takes))
    · refine (takesPath.andThen_refuses (startsIn_valueOperator.bind.refuses ?_)).rule
      have fewer : ∀ c ∈ ['=', 'e'], c ∈ ['=', 'i', 'e'] := by simp
      exact fun c sign => noSign c (fewer c sign)
    · exact (takesPath.andThen_refuses (startsIn_comparison.bind.refuses noSign)).rule
  · exact Takes.rule (.firstOf_cons refuses.bind.rule (.firstOf_cons refuses.bind.rule takes))

/-! ## Parts of a filter -/

/-- A further member of a conjunction. -/
def furtherAnd (level : Nat) : Parser Filter := do
  keyword .andKeyword "and"
  blanks
  (pathLevel level).outerNegation

/-- A further member of a disjunction. -/
def furtherOr (level : Nat) : Parser Filter := do
  keyword .orKeyword "or"
  blanks
  (pathLevel level).filterAnd

theorem EndsFilter.refuses_and (ends : EndsFilter tokens) (other : tokens.head? ≠ some "and") :
    Refuses (furtherAnd level) tokens := by
  obtain ⟨rest, listed⟩ := ends
  simp only [List.mem_cons, List.not_mem_nil, or_false] at listed
  rcases listed with rfl | rfl | rfl | rfl
  · exact (startsIn_keyword (c := 'a') rfl).bind.refuses (by simp)
  · exact (startsIn_keyword (c := 'a') rfl).bind.refuses (by simp)
  · exact absurd rfl other
  · exact (startsIn_keyword (c := 'a') rfl).bind.refuses (by simp)

theorem EndsFilter.refuses_or (ends : EndsFilter tokens) (other : tokens.head? ≠ some "or") :
    Refuses (furtherOr level) tokens := by
  obtain ⟨rest, listed⟩ := ends
  simp only [List.mem_cons, List.not_mem_nil, or_false] at listed
  rcases listed with rfl | rfl | rfl | rfl
  · exact (startsIn_keyword (c := 'o') rfl).bind.refuses (by simp)
  · exact (startsIn_keyword (c := 'o') rfl).bind.refuses (by simp)
  · exact (startsIn_keyword (c := 'o') rfl).bind.refuses (by simp)
  · exact absurd rfl other

/-- What the rules of filters do at the tokens of a filter, at some nesting level. -/
structure Filter.Nests (filter : Filter) (level : Nat) : Prop where
  negation : 2 ≤ filter.tightness → ∀ rest, EndsFilter rest →
    Takes (pathLevel level).outerNegation (filter.tokens ++ rest) filter.explicit rest
  ands : 1 ≤ filter.tightness → ∀ rest, EndsFilter rest →
    Begins (pathLevel level).outerNegation (furtherAnd level) .and (filter.tokens ++ rest)
      filter.explicit rest
  ors : ∀ rest, EndsFilter rest → rest.head? ≠ some "and" →
    Begins (pathLevel level).filterAnd (furtherOr level) .or (filter.tokens ++ rest)
      filter.explicit rest

theorem takes_filterAnd {value : Filter}
    (begins : Begins (pathLevel level).outerNegation (furtherAnd level) .and tokens value rest)
    (ends : EndsFilter rest) (other : rest.head? ≠ some "and") :
    Takes (pathLevel level).filterAnd tokens value rest :=
  (begins.separated (ends.refuses_and other)).rule

theorem takes_outerFilter {value : Filter}
    (begins : Begins (pathLevel level).filterAnd (furtherOr level) .or tokens value rest)
    (ends : EndsFilter rest) (other : rest.head? ≠ some "or") :
    Takes (pathLevel level).outerFilter tokens value rest :=
  (begins.separated (ends.refuses_or other)).rule.rule

theorem takes_outerNegation {value : Filter} (opens : OpensPath tokens)
    (takes : Takes (pathLevel level).filterPrimary tokens value rest) :
    Takes (pathLevel level).outerNegation tokens value rest :=
  (Takes.firstOf_cons opens.refuses_not.bind takes.firstOf).rule

/-- A simple filter is a whole filter in front of a closing bracket or parenthesis. -/
theorem takes_outerFilter_of_primary {value : Filter} (opens : OpensPath tokens)
    (takes : Takes (pathLevel level).filterPrimary tokens value rest) (ends : EndsFilter rest)
    (noAnd : rest.head? ≠ some "and") (noOr : rest.head? ≠ some "or") :
    Takes (pathLevel level).outerFilter tokens value rest :=
  takes_outerFilter
    (takes_filterAnd (takes_outerNegation opens takes).begins ends noAnd).begins ends noOr

namespace Filter

variable {filter : Filter}

theorem Nests.takes_ands (nests : filter.Nests level) (tight : 1 ≤ filter.tightness)
    (ends : EndsFilter rest) (other : rest.head? ≠ some "and") :
    Takes (pathLevel level).filterAnd (filter.tokens ++ rest) filter.explicit rest :=
  takes_filterAnd (nests.ands tight rest ends) ends other

theorem Nests.takes (nests : filter.Nests level) (ends : EndsFilter rest)
    (noAnd : rest.head? ≠ some "and") (noOr : rest.head? ≠ some "or") :
    Takes (pathLevel level).outerFilter (filter.tokens ++ rest) filter.explicit rest :=
  takes_outerFilter (nests.ors rest ends noAnd) ends noOr

theorem Nests.ofOrs (loose : filter.tightness = 0)
    (ors : ∀ rest, EndsFilter rest → rest.head? ≠ some "and" →
      Begins (pathLevel level).filterAnd (furtherOr level) .or (filter.tokens ++ rest)
        filter.explicit rest) : filter.Nests level where
  negation tight := absurd tight (by omega)
  ands tight := absurd tight (by omega)
  ors := ors

theorem Nests.ofAnds (tight : filter.tightness = 1)
    (ands : ∀ rest, EndsFilter rest →
      Begins (pathLevel level).outerNegation (furtherAnd level) .and (filter.tokens ++ rest)
        filter.explicit rest) : filter.Nests level where
  negation tighter := absurd tighter (by omega)
  ands _ := ands
  ors rest ends other := (takes_filterAnd (ands rest ends) ends other).begins

theorem Nests.ofNegation
    (negation : ∀ rest, EndsFilter rest →
      Takes (pathLevel level).outerNegation (filter.tokens ++ rest) filter.explicit rest) :
    filter.Nests level where
  negation _ := negation
  ands _ rest ends := (negation rest ends).begins
  ors rest ends other := (takes_filterAnd (negation rest ends).begins ends other).begins

theorem Nests.ofPrimary (opens : OpensPath filter.tokens)
    (primary : ∀ rest, EndsFilter rest →
      Takes (pathLevel level).filterPrimary (filter.tokens ++ rest) filter.explicit rest) :
    filter.Nests level :=
  .ofNegation fun rest ends => takes_outerNegation (opens.append rest) (primary rest ends)

end Filter

/-! ## Readable paths and filters -/

/-- What is read at the tokens of a path, at some nesting level: by the rules of paths, and by
those of filters where the path is a filter. -/
structure Path.ReadableAt (path : Path) (level : Nat) : Prop extends path.Nests level where
  primary : ∀ rest, EndsFilter rest →
    Takes (pathLevel level).filterPrimary (path.tokens ++ rest) path.explicit.asFilter rest
  continued : ∀ rest, Continues rest → Refuses (filterParentheses level) (path.tokens ++ rest)

/-- What is read at the tokens of a filter, at some nesting level.  Where parentheses around
the filter are tried as those of a path, a path in front of what ends a filter is the whole
of it, or no closing parenthesis follows. -/
structure Filter.ReadableAt (filter : Filter) (level : Nat) : Prop extends filter.Nests level where
  stops : ∀ rest, EndsFilter rest →
    (∃ path, Takes (pathLevel level).outerPath (filter.tokens ++ rest) path rest) ∨
    Refuses (do
      let path ← (pathLevel level).outerPath
      blanks
      literal ")"
      return path) (filter.tokens ++ rest)

/-- A path that is read at every level that has room for its tokens. -/
def Path.Readable (path : Path) : Prop :=
  ∀ level, path.tokens.length ≤ level → path.ReadableAt level

/-- A filter that is read at every level that has room for its tokens. -/
def Filter.Readable (filter : Filter) : Prop :=
  ∀ level, filter.tokens.length ≤ level → filter.ReadableAt level

namespace Path

theorem ReadableAt.ofNests {path : Path} (nests : path.Nests level)
    (bare : path.explicit.asFilter = .path path.explicit)
    (noParentheses : ∀ rest, Refuses (filterParentheses level) (path.tokens ++ rest)) :
    path.ReadableAt level where
  toNests := nests
  primary rest ends := by
    rw [bare]
    refine takes_filterPrimary (.inl ⟨_, rest, nests.takes ends.endsPath, ends⟩) ?_
    exact .firstOf_cons (noParentheses rest).rule
      ((nests.takes ends.endsPath).return (f := Filter.path)).rule.firstOf
  continued rest _ := noParentheses rest

theorem Readable.ofAtom {path : Path} (bare : path.explicit.asFilter = .path path.explicit)
    (noParentheses : ∀ rest, lead (path.tokens ++ rest) ≠ some '(')
    (atom : ∀ level rest, EndsStep rest →
      Takes (pathLevel level).pathAtom (path.tokens ++ rest) path.explicit rest) :
    path.Readable :=
  fun level _ => .ofNests (.ofAtom (atom level)) bare
    fun rest => refuses_filterParentheses_of_lead (noParentheses rest)

theorem Readable.tag {name : String} (isTag : isTagName name = true) : (Path.tag name).Readable :=
  .ofAtom rfl (fun _ => lead_name_ne (isName_of_isTagName isTag) rfl)
    fun _ _ ends => takes_tagStep isTag ends

theorem Readable.wildcard : Path.wildcard.Readable :=
  .ofAtom rfl (fun _ => by simp [tokens]) fun _ _ _ => takes_wildcard

theorem Readable.current : Path.current.Readable :=
  .ofAtom rfl (fun _ => by simp [tokens]) fun _ _ ends => takes_currentStep ends

theorem Readable.parent : Path.parent.Readable :=
  .ofAtom rfl (fun _ => by simp [tokens]) fun _ _ _ => takes_parentStep

theorem Readable.text : Path.text.Readable :=
  .ofAtom rfl (fun _ => by simp [tokens]) fun _ _ _ => takes_textTest

theorem Readable.attribute {name : String} (named : isName name = true) :
    (Path.attribute name).Readable :=
  .ofAtom rfl (fun _ => by simp [tokens, attributeToken]) fun _ _ _ => takes_attributeStep named

theorem Readable.parenthesized {inner : Path} (readable : inner.Readable)
    (opens : OpensPath inner.tokens) : (Path.parenthesized inner).Readable := by
  intro level room
  rw [tokens_parenthesized, List.length_cons, List.length_append] at room
  obtain _ | level := level
  · omega
  obtain ⟨nests, primary, continued⟩ := readable level (by simp at room; omega)
  have asPath : ∀ rest, Takes (pathLevel (level + 1)).path (inner.tokens ++ ")" :: rest)
      inner.explicit (")" :: rest) :=
    fun rest => nests.takes (EndsFilter.closing rest (by simp)).endsPath
  have asFilter : ∀ rest, Takes (pathLevel (level + 1)).filter (inner.tokens ++ ")" :: rest)
      inner.explicit.asFilter (")" :: rest) := fun rest =>
    takes_outerFilter_of_primary (opens.append _) (primary _ (.closing rest (by simp)))
      (.closing rest (by simp)) (by simp) (by simp)
  have spelled : ∀ rest, (Path.parenthesized inner).tokens ++ rest =
      "(" :: (inner.tokens ++ ")" :: rest) := by simp [tokens_parenthesized]
  have atom : (Path.parenthesized inner).Nests (level + 1) :=
    .ofAtom fun rest _ => by
      rw [spelled, explicit]
      exact takes_pathParentheses (asPath rest)
  refine ⟨atom, fun rest ends => ?_, fun rest continues => ?_⟩
  · refine takes_filterPrimary (.inl ⟨_, rest, atom.takes ends.endsPath, ends⟩) ?_
    rw [spelled, explicit, Path.asFilter]
    exact (takes_filterParentheses (asFilter rest) ends).rule.firstOf
  · rw [spelled]
    exact refuses_filterParentheses_of_continues (asFilter rest) continues

theorem Readable.operand {path : Path} (readable : path.Readable) (opens : OpensPath path.tokens)
    (demanded : Nat) : (path.operand demanded).Readable := by
  rw [Path.operand, parenthesizedIf]
  split
  · exact readable.parenthesized opens
  · exact readable

theorem opensPath_operand {path : Path} (opens : OpensPath path.tokens) (demanded : Nat) :
    OpensPath (path.operand demanded).tokens := by
  rw [tokens_operand]
  exact opensPath_enclosedIf opens

theorem endsStep_separator (axis : Axis) (rest : List String) :
    EndsStep (axis.separator :: rest) ∧ lead (axis.separator :: rest) ≠ some '[' := by
  cases axis <;> exact ⟨.of_lead (by simp [Axis.separator]), by simp [Axis.separator]⟩

theorem Readable.step {left right : Path} {axis : Axis} (readableLeft : left.Readable)
    (readableRight : right.Readable) (opensLeft : OpensPath left.tokens)
    (opensRight : OpensPath right.tokens) : (Path.step left axis right).Readable := by
  have spelled : ∀ rest, (Path.step left axis right).tokens ++ rest = (left.operand 1).tokens ++
      axis.separator :: ((right.operand 2).tokens ++ rest) := by
    simp [tokens, tokens_operand]
  intro level room
  have size := congrArg List.length (spelled [])
  simp only [List.length_append, List.length_cons, List.length_nil] at size
  have readLeft := readableLeft.operand opensLeft 1 level (by omega)
  have readRight := readableRight.operand opensRight 2 level (by omega)
  have opens := opensPath_operand opensRight 2
  have next : ∀ rest, lead ((right.operand 2).tokens ++ rest) ≠ some '/' :=
    fun rest => (opens.append rest).lead_ne rfl (by decide)
  refine .ofNests (.ofSteps rfl fun rest ends noFilter => ?_) (by rw [explicit]; rfl) fun rest => ?_
  · rw [spelled, explicit, ← explicit_operand, ← explicit_operand]
    obtain ⟨endsLeft, noFilterLeft⟩ := endsStep_separator axis ((right.operand 2).tokens ++ rest)
    have further : Takes (furtherStep level) (axis.separator :: ((right.operand 2).tokens ++ rest))
        (axis, (right.operand 2).explicit) rest :=
      (takes_axis axis (next rest)).andThen
        ((readRight.takes_filtered (right.le_tightness_operand 2 (by omega)) ends noFilter).return
          (f := fun path => (axis, path)))
    exact (readLeft.steps (left.le_tightness_operand 1 (by omega)) _ endsLeft noFilterLeft).next
      further (by simp only [List.length_append, List.length_cons]; omega)
  · rw [spelled]
    exact readLeft.continued _ (.step axis _ (next rest))

theorem Readable.filtered {base : Path} {filter : Filter} (readableBase : base.Readable)
    (readableFilter : filter.Readable) (opens : OpensPath base.tokens) :
    (Path.filtered base filter).Readable := by
  have spelled : ∀ rest, (Path.filtered base filter).tokens ++ rest = (base.operand 2).tokens ++
      "[" :: (filter.tokens ++ "]" :: rest) := by
    simp [tokens, tokens_operand]
  intro level room
  have size := congrArg List.length (spelled [])
  simp only [List.length_append, List.length_cons, List.length_nil] at size
  obtain _ | level := level
  · omega
  have readBase := readableBase.operand opens 2 (level + 1) (by omega)
  have readFilter := readableFilter level (by omega)
  refine .ofNests (.ofFiltered rfl fun rest ends => ?_) (by rw [explicit]; rfl) fun rest => ?_
  · rw [spelled, explicit, ← explicit_operand]
    have endsBase : EndsStep ("[" :: (filter.tokens ++ "]" :: rest)) := .of_lead (by simp)
    refine (readBase.filtered (base.le_tightness_operand 2 (by omega)) _ endsBase).next ?_
      (by simp only [List.length_append, List.length_cons]; omega)
    have takes : Takes (pathLevel (level + 1)).filter (filter.tokens ++ "]" :: rest) filter.explicit
        ("]" :: rest) := readFilter.takes (.closing rest (by simp)) (by simp) (by simp)
    exact takes.enclosed
  · rw [spelled]
    exact readBase.continued _ (.filter _)

theorem Readable.pair {left right : Path} (readableLeft : left.Readable)
    (readableRight : right.Readable) (opens : OpensPath right.tokens) :
    (Path.pair left right).Readable := by
  have spelled : ∀ rest, (Path.pair left right).tokens ++ rest = left.tokens ++
      "," :: ((right.operand 1).tokens ++ rest) := by
    simp [tokens, tokens_operand]
  intro level room
  have size := congrArg List.length (spelled [])
  simp only [List.length_append, List.length_cons, List.length_nil] at size
  have readLeft := readableLeft level (by omega)
  have readRight := readableRight.operand opens 1 level (by omega)
  refine .ofNests (.ofPairs rfl fun rest ends noFilter noAxis => ?_) (by rw [explicit]; rfl)
    fun rest => ?_
  · rw [spelled, explicit, ← explicit_operand]
    have endsLeft : EndsStep ("," :: ((right.operand 1).tokens ++ rest)) := .of_lead (by simp)
    refine (readLeft.pairs _ endsLeft (by simp) (by simp)).next ?_
      (by simp only [List.length_append, List.length_cons]; omega)
    exact (takes_literal "," _).andThen
      (readRight.takes_steps (right.le_tightness_operand 1 (by omega)) ends noFilter noAxis)
  · rw [spelled]
    exact readLeft.continued _ (.pair _)

end Path

theorem takes_outerPath_of_atom {value : Path}
    (takes : Takes (pathLevel level).pathAtom tokens value rest) (ends : EndsPath rest) :
    Takes (pathLevel level).outerPath tokens value rest :=
  takes_outerPath (takes_pathSteps (takes_pathFiltered takes.begins ends.noFilter).begins
    ends.noAxis).begins (ends.noPair level)

theorem refuses_pathSteps (refuses : Refuses (pathLevel level).pathAtom tokens) :
    Refuses (pathLevel level).pathSteps tokens :=
  refuses.bind.rule.bind.rule

theorem refuses_outerPath (refuses : Refuses (pathLevel level).pathAtom tokens) :
    Refuses (pathLevel level).outerPath tokens :=
  (refuses_pathSteps refuses).bind.bind.rule

/-- The filter that compares two paths. -/
def Grammar.Comparison.filter (left right : Path) : Comparison → Filter
  | .identity => .identityEq left right
  | .value => .valueEq left right

/-- A comparison is read where no string follows its sign. -/
theorem takes_filterComparison (compared : Comparison) {left right : Path} {sign : String}
    {between : List String}
    (takesLeft : Takes (pathLevel level).outerPath tokens left (sign :: between))
    (noConstant : Refuses (do
      valueOperator
      blanks
      return Filter.constantEq left (← stringLiteral)) (sign :: between))
    (takesSign : Takes comparison (sign :: between) compared between)
    (takesRight : Takes (pathLevel level).outerPath between right rest) :
    Takes (pathLevel level).filterPrimary tokens (compared.filter left right) rest := by
  refine Takes.rule (.firstOf_cons (takesLeft.andThen_refuses noConstant).rule ?_)
  exact (takesLeft.andThen (takesSign.andThen
    (f := fun compared => do return compared.filter left (← (pathLevel level).outerPath))
    takesRight.return)).rule.firstOf

namespace Filter

theorem ReadableAt.refuses_before {filter : Filter} (readable : filter.ReadableAt level)
    (ends : EndsFilter rest) (differs : lead rest ≠ some ')') :
    Refuses (do
      let path ← (pathLevel level).outerPath
      blanks
      literal ")"
      return path) (filter.tokens ++ rest) := by
  rcases readable.stops rest ends with ⟨path, takes⟩ | refuses
  · exact takes.andThen_refuses
      ((startsIn_literal (c := ')') rfl).bind.refuses (by simpa using differs))
  · exact refuses

/-- A comparison whose left side is not followed by a parenthesis is not a path in parentheses. -/
theorem Readable.ofComparison {filter : Filter} {left : Path} {token : String}
    {behind : List String → List String} (readable : left.Readable) (opens : OpensPath left.tokens)
    (spelled : ∀ rest, filter.tokens ++ rest = (left.operand 1).tokens ++ token :: behind rest)
    (sign : ∀ c ∈ [')', '.', '(', '[', '/', ','], token.toList.head? ≠ some c)
    (primary : ∀ level rest, filter.tokens.length ≤ level → EndsFilter rest →
      Takes (pathLevel level).filterPrimary (filter.tokens ++ rest) filter.explicit rest) :
    filter.Readable := by
  intro level room
  have size := congrArg List.length (spelled [])
  simp only [List.length_append, List.length_cons, List.length_nil] at size
  have readLeft := readable.operand opens 1 level (by omega)
  have ends : ∀ rest, EndsPath (token :: rest) :=
    fun rest => .of_lead fun c listed => sign c (List.mem_cons_of_mem _ listed)
  refine ⟨.ofPrimary ?_ (fun rest => primary level rest room), fun rest _ => .inr ?_⟩
  · have whole := spelled []
    rw [List.append_nil] at whole
    rw [whole]
    exact (Path.opensPath_operand opens 1).append _
  · rw [spelled]
    refine (readLeft.takes (ends _)).andThen_refuses ?_
    exact (startsIn_literal (c := ')') rfl).bind.refuses (by simpa using sign ')' (by simp))

theorem Readable.valueEq {left right : Path} (readableLeft : left.Readable)
    (readableRight : right.Readable) (opensLeft : OpensPath left.tokens)
    (opensRight : OpensPath right.tokens) : (Filter.valueEq left right).Readable := by
  have spelled : ∀ rest, (Filter.valueEq left right).tokens ++ rest = (left.operand 1).tokens ++
      "=" :: ((right.operand 1).tokens ++ rest) := by
    simp [tokens, Path.tokens_operand]
  refine .ofComparison readableLeft opensLeft spelled (by simp) fun level rest room ends => ?_
  have size := congrArg List.length (spelled [])
  simp only [List.length_append, List.length_cons, List.length_nil] at size
  have opens := (Path.opensPath_operand opensRight 1).append rest
  rw [spelled, explicit, ← Path.explicit_operand, ← Path.explicit_operand]
  refine takes_filterComparison .value
    ((readableLeft.operand opensLeft 1 level (by omega)).takes (.of_lead (by simp))) ?_
    (takes_comparison_value (opens.lead_ne rfl (by decide)))
    ((readableRight.operand opensRight 1 level (by omega)).takes ends.endsPath)
  exact (takes_valueOperator _).andThen_refuses
    (startsIn_stringLiteral.bind.refuses (by simpa using opens.lead_ne rfl (by decide)))

theorem Readable.identityEq {left right : Path} (readableLeft : left.Readable)
    (readableRight : right.Readable) (opensLeft : OpensPath left.tokens)
    (opensRight : OpensPath right.tokens) : (Filter.identityEq left right).Readable := by
  have spelled : ∀ rest, (Filter.identityEq left right).tokens ++ rest = (left.operand 1).tokens ++
      "==" :: ((right.operand 1).tokens ++ rest) := by
    simp [tokens, Path.tokens_operand]
  refine .ofComparison readableLeft opensLeft spelled (by simp) fun level rest room ends => ?_
  have size := congrArg List.length (spelled [])
  simp only [List.length_append, List.length_cons, List.length_nil] at size
  rw [spelled, explicit, ← Path.explicit_operand, ← Path.explicit_operand]
  exact takes_filterComparison .identity
    ((readableLeft.operand opensLeft 1 level (by omega)).takes (.of_lead (by simp)))
    (refuses_value_of_identity startsIn_stringLiteral.bind) (takes_comparison_identity _)
    ((readableRight.operand opensRight 1 level (by omega)).takes ends.endsPath)

theorem Readable.constantEq {path : Path} {value : String} (readable : path.Readable)
    (opens : OpensPath path.tokens) (quotable : isQuotable value = true) :
    (Filter.constantEq path value).Readable := by
  have spelled : ∀ rest, (Filter.constantEq path value).tokens ++ rest =
      (path.operand 1).tokens ++ "=" :: (stringToken value :: rest) := by
    simp [tokens, Path.tokens_operand]
  refine .ofComparison readable opens spelled (by simp) fun level rest room ends => ?_
  have size := congrArg List.length (spelled [])
  simp only [List.length_append, List.length_cons, List.length_nil] at size
  rw [spelled, explicit, ← Path.explicit_operand]
  refine Takes.rule (Takes.rule ?_).firstOf
  exact ((readable.operand opens 1 level (by omega)).takes (.of_lead (by simp))).andThen
    ((takes_valueOperator _).andThen ((takes_stringLiteral quotable rest).return
      (f := fun value => Filter.constantEq (path.operand 1).explicit value)))

theorem Readable.path {path : Path} (readable : path.Readable) (opens : OpensPath path.tokens) :
    (Filter.path path).Readable := by
  have spelled : (Filter.path path).tokens = (path.operand 1).tokens := by
    rw [tokens, Path.tokens_operand]
  intro level room
  rw [spelled] at room
  have read := readable.operand opens 1 level room
  refine ⟨.ofPrimary ?_ fun rest ends => ?_, fun rest ends => .inl ⟨(path.operand 1).explicit, ?_⟩⟩
  · rw [spelled]
    exact Path.opensPath_operand opens 1
  · rw [spelled, explicit, ← Path.explicit_operand]
    exact read.primary rest ends
  · rw [spelled]
    exact read.takes ends.endsPath

theorem Readable.parenthesized {inner : Filter} (readable : inner.Readable) :
    (Filter.parenthesized inner).Readable := by
  have spelled : ∀ rest, (Filter.parenthesized inner).tokens ++ rest =
      "(" :: (inner.tokens ++ ")" :: rest) := by simp [tokens_parenthesized]
  intro level room
  rw [tokens_parenthesized, List.length_cons, List.length_append] at room
  obtain _ | level := level
  · omega
  have read := readable level (by simp at room; omega)
  have asPath : ∀ rest, EndsFilter rest →
      (∃ path, Takes (pathLevel (level + 1)).outerPath ((Filter.parenthesized inner).tokens ++ rest)
        path rest) ∨
      Refuses (pathLevel (level + 1)).outerPath ((Filter.parenthesized inner).tokens ++ rest) := by
    intro rest ends
    rw [spelled]
    rcases read.stops (")" :: rest) (.closing rest (by simp)) with ⟨path, takes⟩ | refuses
    · exact .inl ⟨_, takes_outerPath_of_atom (takes_pathParentheses takes) ends.endsPath⟩
    · exact .inr (refuses_outerPath (refuses_pathAtom_of_parentheses refuses))
  refine ⟨.ofPrimary ?_ fun rest ends => ?_, fun rest ends => ?_⟩
  · rw [tokens_parenthesized]
    exact .sign _ rfl (by decide)
  · refine takes_filterPrimary ?_ ?_
    · exact (asPath rest ends).imp (fun ⟨path, takes⟩ => ⟨path, rest, takes, ends⟩) id
    · have takes : Takes (pathLevel (level + 1)).filter (inner.tokens ++ ")" :: rest)
          inner.explicit (")" :: rest) := read.takes (.closing rest (by simp)) (by simp) (by simp)
      rw [spelled, explicit]
      exact (takes_filterParentheses takes ends).rule.firstOf
  · exact (asPath rest ends).imp id Refuses.bind

theorem Readable.operand {filter : Filter} (readable : filter.Readable) (demanded : Nat) :
    (filter.operand demanded).Readable := by
  rw [Filter.operand, parenthesizedIf]
  split
  · exact readable.parenthesized
  · exact readable

theorem Readable.and {left right : Filter} (readableLeft : left.Readable)
    (readableRight : right.Readable) : (Filter.and left right).Readable := by
  have spelled : ∀ rest, (Filter.and left right).tokens ++ rest = (left.operand 1).tokens ++
      "and" :: ((right.operand 2).tokens ++ rest) := by
    simp [tokens, tokens_operand]
  intro level room
  have size := congrArg List.length (spelled [])
  simp only [List.length_append, List.length_cons, List.length_nil] at size
  have readLeft := readableLeft.operand 1 level (by omega)
  have readRight := readableRight.operand 2 level (by omega)
  have endsLeft : ∀ rest, EndsFilter ("and" :: ((right.operand 2).tokens ++ rest)) :=
    fun rest => .closing _ (by simp)
  refine ⟨.ofAnds rfl fun rest ends => ?_, fun rest ends => .inr ?_⟩
  · rw [spelled, explicit, ← explicit_operand, ← explicit_operand]
    refine (readLeft.ands (left.le_tightness_operand 1 (by omega)) _ (endsLeft rest)).next ?_
      (by simp only [List.length_append, List.length_cons]; omega)
    exact (takes_keyword (by decide) _).andThen
      (readRight.negation (right.le_tightness_operand 2 (by omega)) rest ends)
  · rw [spelled]
    exact readLeft.refuses_before (endsLeft rest) (by simp)

theorem Readable.or {left right : Filter} (readableLeft : left.Readable)
    (readableRight : right.Readable) : (Filter.or left right).Readable := by
  have spelled : ∀ rest, (Filter.or left right).tokens ++ rest = left.tokens ++
      "or" :: ((right.operand 1).tokens ++ rest) := by
    simp [tokens, tokens_operand]
  intro level room
  have size := congrArg List.length (spelled [])
  simp only [List.length_append, List.length_cons, List.length_nil] at size
  have readLeft := readableLeft level (by omega)
  have readRight := readableRight.operand 1 level (by omega)
  have endsLeft : ∀ rest, EndsFilter ("or" :: ((right.operand 1).tokens ++ rest)) :=
    fun rest => .closing _ (by simp)
  refine ⟨.ofOrs rfl fun rest ends noAnd => ?_, fun rest ends => .inr ?_⟩
  · rw [spelled, explicit, ← explicit_operand]
    refine (readLeft.ors _ (endsLeft rest) (by simp)).next ?_
      (by simp only [List.length_append, List.length_cons]; omega)
    exact (takes_keyword (by decide) _).andThen
      (readRight.takes_ands (right.le_tightness_operand 1 (by omega)) ends noAnd)
  · rw [spelled]
    exact readLeft.refuses_before (endsLeft rest) (by simp)

theorem Readable.not {inner : Filter} (readable : inner.Readable) :
    (Filter.not inner).Readable := by
  have spelled : ∀ rest, (Filter.not inner).tokens ++ rest =
      "not" :: ((inner.operand 2).tokens ++ rest) := by
    simp [tokens, tokens_operand]
  intro level room
  have size := congrArg List.length (spelled [])
  simp only [List.length_append, List.length_cons, List.length_nil] at size
  obtain _ | level := level
  · omega
  have read := readable.operand 2 level (by omega)
  refine ⟨.ofNegation fun rest ends => ?_, fun rest _ => .inr ?_⟩
  · rw [spelled, explicit, ← explicit_operand]
    have takes : Takes (pathLevel (level + 1)).negation ((inner.operand 2).tokens ++ rest)
        (inner.operand 2).explicit rest :=
      read.negation (inner.le_tightness_operand 2 (by omega)) rest ends
    exact ((takes_keyword (by decide) _).andThen (takes.return (f := Filter.not))).firstOf.rule
  · rw [spelled]
    exact (refuses_outerPath (refuses_pathAtom_of_reserved (by decide) _)).bind

end Filter

mutual
/-- The tokens of a printable path are read as the path with its parentheses explicit. -/
theorem Path.readable : (path : Path) → path.isPrintable = true → path.Readable
  | .tag _, printable => .tag printable
  | .wildcard, _ => .wildcard
  | .current, _ => .current
  | .parent, _ => .parent
  | .text, _ => .text
  | .attribute _, printable => .attribute printable
  | .parenthesized inner, printable =>
      (inner.readable printable).parenthesized (inner.opensPath printable)
  | .step left _ right, printable => by
      rw [Path.isPrintable, Bool.and_eq_true] at printable
      exact (left.readable printable.1).step (right.readable printable.2)
        (left.opensPath printable.1) (right.opensPath printable.2)
  | .filtered base filter, printable => by
      rw [Path.isPrintable, Bool.and_eq_true] at printable
      exact (base.readable printable.1).filtered (filter.readable printable.2)
        (base.opensPath printable.1)
  | .pair left right, printable => by
      rw [Path.isPrintable, Bool.and_eq_true] at printable
      exact (left.readable printable.1).pair (right.readable printable.2)
        (right.opensPath printable.2)

/-- The tokens of a printable filter are read as the filter with its parentheses explicit. -/
theorem Filter.readable : (filter : Filter) → filter.isPrintable = true → filter.Readable
  | .path path, printable => .path (path.readable printable) (path.opensPath printable)
  | .valueEq left right, printable => by
      rw [Filter.isPrintable, Bool.and_eq_true] at printable
      exact .valueEq (left.readable printable.1) (right.readable printable.2)
        (left.opensPath printable.1) (right.opensPath printable.2)
  | .identityEq left right, printable => by
      rw [Filter.isPrintable, Bool.and_eq_true] at printable
      exact .identityEq (left.readable printable.1) (right.readable printable.2)
        (left.opensPath printable.1) (right.opensPath printable.2)
  | .constantEq path _, printable => by
      rw [Filter.isPrintable, Bool.and_eq_true] at printable
      exact .constantEq (path.readable printable.1) (path.opensPath printable.1) printable.2
  | .parenthesized inner, printable => (inner.readable printable).parenthesized
  | .and left right, printable => by
      rw [Filter.isPrintable, Bool.and_eq_true] at printable
      exact (left.readable printable.1).and (right.readable printable.2)
  | .or left right, printable => by
      rw [Filter.isPrintable, Bool.and_eq_true] at printable
      exact (left.readable printable.1).or (right.readable printable.2)
  | .not inner, printable => (inner.readable printable).not
end

end TreeQuery
