import TreeQuery.Proofs.Grammar.Primaries

/-!
# Reading printed queries

The tokens of a printable query are read as the query with its parentheses explicit
(`Query.readable`, `Condition.readable`).  As for paths, `Query.Nests` and `Condition.Nests` say
what each rule of the grammar does at the tokens, and each constructor has a lemma.

An opening parenthesis can belong to a query or to a condition, and the grammar tries the query
first.  No query in front of a closing parenthesis reads the tokens of a condition
(`Condition.Nests.noQuery`), so parentheses around a condition are left for the condition.
-/

set_option autoImplicit false

namespace TreeQuery

open TreeQuery.Grammar.Parser TreeQuery.Grammar

variable {room level : Nat} {tokens rest : List String}

/-! ## Parts of a query -/

/-- The parsers of a level of queries whose paths nest no deeper than there is room for. -/
def queriesAt (room level : Nat) : QueryLevel := queryLevel (pathLevel (room + 1)).path level

theorem queriesAt_path : (level : Nat) → (queriesAt room level).path = (pathLevel room).outerPath
  | 0 => rfl
  | level + 1 => queriesAt_path level

/-- A further query behind a comma. -/
def furtherQuery (inner : QueryLevel) : Parser Query := do
  comma
  blanks
  inner.outerSingle

/-- What the rules of queries do at the tokens of a query, at some nesting level. -/
structure Query.Nests (query : Query) (inner : QueryLevel) : Prop where
  base : query.tightness = 3 → query.endsInPath = false → ∀ rest,
    Takes inner.queryPrimary (query.tokens ++ rest) query.explicit rest
  single : 1 ≤ query.tightness → ∀ rest, EndsPath rest →
    (query.isOpenEnded = true → lead rest ≠ some ',') →
      Takes inner.outerSingle (query.tokens ++ rest) query.explicit rest
  pairs : ∀ rest, EndsPath rest → (query.isOpenEnded = true → lead rest ≠ some ',') →
    Begins inner.outerSingle (furtherQuery inner) .pair (query.tokens ++ rest) query.explicit rest

/-- A query that is read at every level that has room for its tokens. -/
def Query.Readable (room : Nat) (query : Query) : Prop :=
  ∀ level, query.tokens.length ≤ level → level ≤ room → query.Nests (queriesAt room level)

namespace Query

variable {query : Query} {inner : QueryLevel}

theorem Nests.takes (nests : query.Nests inner) (ends : EndsPath rest)
    (noComma : lead rest ≠ some ',') :
    Takes inner.outerQuery (query.tokens ++ rest) query.explicit rest := by
  have refuses : Refuses (furtherQuery inner) rest :=
    startsIn_comma.bind.refuses (by simpa using noComma)
  exact ((nests.pairs rest ends fun _ => noComma).separated refuses).rule

theorem Nests.ofPairs (loose : query.tightness = 0)
    (pairs : ∀ rest, EndsPath rest → (query.isOpenEnded = true → lead rest ≠ some ',') →
      Begins inner.outerSingle (furtherQuery inner) .pair (query.tokens ++ rest) query.explicit
        rest) : query.Nests inner where
  base tight := absurd tight (by omega)
  single tight := absurd tight (by omega)
  pairs := pairs

theorem Nests.ofSingle (tight : query.tightness ≤ 2 ∨ query.endsInPath = true)
    (single : ∀ rest, EndsPath rest → (query.isOpenEnded = true → lead rest ≠ some ',') →
      Takes inner.outerSingle (query.tokens ++ rest) query.explicit rest) :
    query.Nests inner where
  base tighter noPath := by
    rcases tight with loose | path
    · omega
    · rw [noPath] at path
      cases path
  single _ := single
  pairs rest ends noComma := (single rest ends noComma).begins

/-- Only the queries that are clauses start with the letter of a clause. -/
theorem lead_ne_clause : (query : Query) → 2 ≤ query.tightness → (rest : List String) →
    ∀ c ∈ ['f', 'l'], lead (query.tokens ++ rest) ≠ some c
  | .reference _, _, _ => by simp [tokens, referenceToken]
  | .constant _, _, _ => by simp [tokens, stringToken]
  | .document _, _, _ => by simp [tokens, DocumentPath.tokens]
  | .parenthesized _, _, _ => by simp [tokens_parenthesized]
  | .element _ _, _, _ => by simp [tokens]
  | .join _ _ _ _, _, _ => by simp [tokens]
  | .step base axis path, _, rest => by
      have spelled : (Query.step base axis path).tokens ++ rest =
          (base.parenthesizedIf (base.tightness < 2)).tokens ++
            axis.separator :: ((path.operand 1).tokens ++ rest) := by
        simp [tokens, tokens_parenthesizedIf]
      rw [spelled, parenthesizedIf]
      split
      · simp [tokens_parenthesized]
      · next tight =>
        exact lead_ne_clause base (Nat.le_of_not_lt fun loose => tight (decide_eq_true loose)) _
  | .pair _ _, tight, _ => by simp [tightness] at tight
  | .letIn _ _, tight, _ => by simp [tightness] at tight
  | .flwr _ _ _ _, tight, _ => by simp [tightness] at tight

theorem takes_single_of_path (tight : 2 ≤ query.tightness)
    (takes : Takes inner.queryPath (query.tokens ++ rest) query.explicit rest) :
    Takes inner.outerSingle (query.tokens ++ rest) query.explicit rest :=
  takes_outerSingle_path takes (query.lead_ne_clause tight rest 'f' (by simp))
    (query.lead_ne_clause tight rest 'l' (by simp))

theorem Nests.ofPath (tight : 2 ≤ query.tightness) (ends : query.endsInPath = true)
    (path : ∀ rest, EndsPath rest →
      Takes inner.queryPath (query.tokens ++ rest) query.explicit rest) : query.Nests inner :=
  .ofSingle (.inr ends) fun rest ends _ => takes_single_of_path tight (path rest ends)

theorem Nests.ofBase (tight : query.tightness = 3)
    (base : ∀ rest, Takes inner.queryPrimary (query.tokens ++ rest) query.explicit rest) :
    query.Nests inner := by
  have single : ∀ rest, EndsPath rest →
      Takes inner.outerSingle (query.tokens ++ rest) query.explicit rest :=
    fun rest ends => takes_single_of_path (by omega) (takes_queryPath (base rest) ends.noAxis)
  exact ⟨fun _ _ => base, fun _ rest ends _ => single rest ends,
    fun rest ends _ => (single rest ends).begins⟩

/-! ## Readable queries -/

theorem Readable.reference {name : String} (named : isName name = true) :
    (Query.reference name).Readable room :=
  fun _ _ _ => .ofBase rfl fun _ => takes_queryPrimary_reference named

theorem Readable.constant {value : String} (quotable : isQuotable value = true) :
    (Query.constant value).Readable room :=
  fun _ _ _ => .ofBase rfl fun _ => takes_queryPrimary_constant quotable

theorem takes_pathOperand {path : Path} (printable : path.isPrintable = true)
    (within : (path.operand 1).tokens.length ≤ room) (ends : EndsPath rest) :
    Takes (queriesAt room level).path ((path.operand 1).tokens ++ rest) (path.operand 1).explicit
      rest := by
  rw [queriesAt_path]
  exact ((path.readable printable).operand (path.opensPath printable) 1 room within).takes ends

theorem lead_pathOperand_ne {path : Path} (printable : path.isPrintable = true)
    (rest : List String) : lead ((path.operand 1).tokens ++ rest) ≠ some '/' :=
  ((Path.opensPath_operand (path.opensPath printable) 1).append rest).lead_ne rfl (by decide)

/-- The tokens of a printable document path are read as the path with its parentheses
explicit. -/
theorem takes_documentPath {path : DocumentPath} {parser : Parser Path}
    (printable : path.isPrintable = true)
    (takes : Takes parser ((path.path.operand 1).tokens ++ rest) (path.path.operand 1).explicit
      rest) : Takes (documentPath parser) (path.tokens ++ rest) path.explicit rest := by
  rw [DocumentPath.isPrintable, Bool.and_eq_true] at printable
  have call : ∀ rest, Takes documentCall ("doc" :: "(" :: stringToken path.document :: ")" :: rest)
      path.document rest := fun rest =>
    ((takes_docKeyword _).andThen ((takes_stringLiteral printable.1 _).enclosed)).rule
  exact ((call _).andThen ((takes_axis path.axis (lead_pathOperand_ne printable.2 rest)).andThen
    (takes.return (f := fun steps => DocumentPath.mk path.document path.axis steps)))).rule

theorem Readable.document {path : DocumentPath} (printable : path.isPrintable = true) :
    (Query.document path).Readable room := by
  intro level room within
  have parts := printable
  rw [DocumentPath.isPrintable, Bool.and_eq_true] at parts
  rw [tokens, DocumentPath.tokens] at room
  simp only [List.length_cons] at room
  refine .ofPath (Nat.le_succ 2) rfl fun rest ends => ?_
  rw [tokens, explicit]
  exact takes_queryPath (takes_queryPrimary_document (takes_documentPath printable
    (takes_pathOperand parts.2 (by omega) ends))) ends.noAxis

theorem Readable.parenthesized (readable : query.Readable room) :
    (Query.parenthesized query).Readable room := by
  intro level enough within
  rw [tokens_parenthesized, List.length_cons, List.length_append] at enough
  obtain _ | level := level
  · omega
  have nests := readable level (by simp at enough; omega) (by omega)
  refine .ofBase rfl fun rest => ?_
  have takes : Takes (queriesAt room (level + 1)).query (query.tokens ++ ")" :: rest)
      query.explicit (")" :: rest) := nests.takes (.of_lead (by simp)) (by simp)
  rw [tokens_parenthesized, List.cons_append, List.append_assoc, explicit]
  exact takes_queryParentheses takes

theorem Readable.parenthesizedIf (readable : query.Readable room) (needed : Bool) :
    (query.parenthesizedIf needed).Readable room := by
  cases needed with
  | false => exact readable
  | true => exact readable.parenthesized

/-- Where a single query is due, a query stands in parentheses if it would take in what follows
it. -/
theorem Readable.takes_operand (readable : query.Readable room) (within : level ≤ room)
    (enough : (enclosedIf query.needsParentheses query.tokens).length ≤ level)
    (ends : EndsPath rest) :
    Takes (queriesAt room level).outerSingle
      (enclosedIf query.needsParentheses query.tokens ++ rest)
      (query.explicit.parenthesizedIf query.needsParentheses) rest := by
  rw [← tokens_parenthesizedIf] at enough ⊢
  rw [← explicit_parenthesizedIf]
  refine (readable.parenthesizedIf _ level enough within).single ?_ rest ends ?_
  · cases needed : query.needsParentheses with
    | true => exact Nat.le_of_ble_eq_true rfl
    | false =>
        rw [needsParentheses, Bool.or_eq_false_iff, decide_eq_false_iff_not] at needed
        exact Nat.not_lt.mp needed.2
  · rw [isOpenEnded_parenthesizedIf, needsParentheses]
    cases query.isOpenEnded <;> simp

theorem Readable.pair {left right : Query} (readableLeft : left.Readable room)
    (readableRight : right.Readable room) : (Query.pair left right).Readable room := by
  have spelled : ∀ rest, (Query.pair left right).tokens ++ rest =
      (left.parenthesizedIf left.isOpenEnded).tokens ++
        "," :: ((right.parenthesizedIf (right.tightness < 1)).tokens ++ rest) := by
    simp [tokens, tokens_parenthesizedIf]
  intro level enough within
  have size := congrArg List.length (spelled [])
  simp only [List.length_append, List.length_cons, List.length_nil] at size
  have readLeft := readableLeft.parenthesizedIf left.isOpenEnded level (by omega) within
  have readRight := readableRight.parenthesizedIf (right.tightness < 1) level (by omega) within
  refine .ofPairs rfl fun rest ends noComma => ?_
  rw [spelled, explicit, ← explicit_parenthesizedIf, ← explicit_parenthesizedIf]
  have opens := ((right.parenthesizedIf (right.tightness < 1)).opensQuery).append rest
  refine (readLeft.pairs _ (.comma opens.refuses_pathAtom) ?_).next ?_
    (by simp only [List.length_append, List.length_cons]; omega)
  · rw [isOpenEnded_parenthesizedIf]
    cases left.isOpenEnded <;> simp
  · refine (takes_literal "," _).andThen (readRight.single ?_ rest ends ?_)
    · rw [Query.parenthesizedIf]
      split
      · exact Nat.le_of_ble_eq_true rfl
      · next tight => exact Nat.not_lt.mp (by simpa using tight)
    · intro opened
      rw [isOpenEnded_parenthesizedIf, Bool.and_eq_true] at opened
      exact noComma opened.2

theorem Readable.step {base : Query} {axis : Axis} {path : Path} (readable : base.Readable room)
    (noPath : base.endsInPath = false) (printable : path.isPrintable = true) :
    (Query.step base axis path).Readable room := by
  have spelled : ∀ rest, (Query.step base axis path).tokens ++ rest =
      (base.parenthesizedIf (base.tightness < 2)).tokens ++
        axis.separator :: ((path.operand 1).tokens ++ rest) := by
    simp [tokens, tokens_parenthesizedIf]
  intro level enough within
  have size := congrArg List.length (spelled [])
  simp only [List.length_append, List.length_cons, List.length_nil] at size
  have read := readable.parenthesizedIf (base.tightness < 2) level (by omega) within
  have tight : (base.parenthesizedIf (base.tightness < 2)).tightness = 3 ∧
      (base.parenthesizedIf (base.tightness < 2)).endsInPath = false := by
    rw [Query.parenthesizedIf]
    split
    · exact ⟨rfl, rfl⟩
    · next tight =>
        refine ⟨?_, noPath⟩
        cases base <;> simp_all [tightness, endsInPath]
  refine .ofPath (Nat.le_refl 2) rfl fun rest ends => ?_
  rw [spelled, explicit, ← explicit_parenthesizedIf]
  exact takes_queryPath_step (read.base tight.1 tight.2 _) (lead_pathOperand_ne printable rest)
    (takes_pathOperand printable (by omega) ends)

theorem Readable.element {name : String} {body : Query} (named : isName name = true)
    (readable : body.Readable room) : (Query.element name body).Readable room := by
  have spelled : ∀ rest, (Query.element name body).tokens ++ rest =
      "<" :: name :: ">" :: "\x7b" ::
        (body.tokens ++ "\x7d" :: "<" :: "/" :: name :: ">" :: rest) := by
    simp [tokens]
  intro level enough within
  have size := congrArg List.length (spelled [])
  simp only [List.length_append, List.length_cons, List.length_nil] at size
  obtain _ | level := level
  · omega
  have nests := readable level (by omega) (by omega)
  refine .ofBase rfl fun rest => ?_
  rw [spelled, explicit]
  have takes : Takes (queriesAt room (level + 1)).query
      (body.tokens ++ "\x7d" :: "<" :: "/" :: name :: ">" :: rest) body.explicit
      ("\x7d" :: "<" :: "/" :: name :: ">" :: rest) := nests.takes (.of_lead (by simp)) (by simp)
  exact takes_element named takes

theorem Readable.join {left right : Query} {leftTags rightTags : List String}
    (readableLeft : left.Readable room) (readableRight : right.Readable room)
    (namedLeft : ∀ tag ∈ leftTags, isName tag = true)
    (namedRight : ∀ tag ∈ rightTags, isName tag = true) :
    (Query.join left right leftTags rightTags).Readable room := by
  have spelled : ∀ rest, (Query.join left right leftTags rightTags).tokens ++ rest =
      "join" :: "(" :: (enclosedIf left.needsParentheses left.tokens ++
        "," :: (enclosedIf right.needsParentheses right.tokens ++
          "," :: (tagTokens leftTags ++ "," :: (tagTokens rightTags ++ ")" :: rest)))) := by
    simp [tokens]
  intro level enough within
  have size := congrArg List.length (spelled [])
  simp only [List.length_append, List.length_cons, List.length_nil] at size
  obtain _ | level := level
  · omega
  have inside : level ≤ room := by omega
  have takesLeft := fun rest (ends : EndsPath rest) =>
    readableLeft.takes_operand inside (by omega) ends
  have takesRight := fun rest (ends : EndsPath rest) =>
    readableRight.takes_operand inside (by omega) ends
  refine .ofBase rfl fun rest => ?_
  rw [spelled, explicit]
  have opens := (opensQuery_enclosedIf right.needsParentheses right.opensQuery).append
    ("," :: (tagTokens leftTags ++ "," :: (tagTokens rightTags ++ ")" :: rest)))
  have noPath : ∀ level, Refuses (pathLevel level).pathAtom
      (tagTokens leftTags ++ "," :: (tagTokens rightTags ++ ")" :: rest)) := fun level =>
    TreeQuery.refuses_pathAtom (by simp [tagTokens])
      ((startsIn_enclosed (c := '(') rfl).refuses (by simp [tagTokens]))
      (refuses_tagStep (by simp [tagTokens]; decide))
  refine takes_queryPrimary (by simp) (Takes.rule ?_).firstOf
  exact (takes_keyword (by decide) _).andThen ((takes_literal "(" _).andThen
    ((takesLeft _ (.comma opens.refuses_pathAtom)).andThen ((takes_literal "," _).andThen
      ((takesRight _ (.comma noPath)).andThen ((takes_literal "," _).andThen
        ((takes_tagList namedLeft).andThen ((takes_literal "," _).andThen
          ((takes_tagList namedRight).andThen ((takes_literal ")" rest).return
            (f := fun _ => Query.join _ _ leftTags rightTags))))))))))

end Query

/-! ## Clauses -/

section

variable (inner : QueryLevel) {name : String} {value : Query}

theorem takes_inBinding (named : isName name = true)
    (takes : Takes inner.single tokens value rest) :
    Takes inner.inBinding (referenceToken name :: "in" :: tokens) ⟨name, value⟩ rest :=
  ((takes_reference named _).andThen ((takes_keyword (by decide) _).andThen
    (takes.return (f := fun source => Binding.mk name source)))).rule

theorem takes_letBinding (named : isName name = true)
    (takes : Takes inner.single tokens value rest) :
    Takes inner.letBinding (referenceToken name :: ":=" :: tokens) ⟨name, value⟩ rest :=
  ((takes_reference named _).andThen ((takes_literal ":=" _).andThen
    (takes.return (f := fun source => Binding.mk name source)))).rule

end

/-- Bindings whose names and sources are read. -/
def Binding.AllReadable (room : Nat) (bindings : List Binding) : Prop :=
  ∀ binding ∈ bindings, isName binding.name = true ∧ binding.source.Readable room

/-- The bindings of a clause are taken if a single binding of the clause is. -/
theorem takes_bindings {operator : String} {binding : Parser Binding} {bindings : List Binding}
    (takes : ∀ {name : String} {tokens rest : List String} {value : Query}, isName name = true →
      Takes (queriesAt room level).outerSingle tokens value rest →
        Takes binding (referenceToken name :: operator :: tokens) ⟨name, value⟩ rest)
    (readable : Binding.AllReadable room bindings) (bound : bindings ≠ [])
    (within : level ≤ room) (enough : (Binding.tokensAll operator bindings).tail.length ≤ level)
    (ends : EndsPath rest) (noComma : lead rest ≠ some ',') :
    Takes (QueryLevel.bindings binding) ((Binding.tokensAll operator bindings).tail ++ rest)
      (Binding.explicitAll bindings) rest := by
  obtain ⟨first, others, rfl⟩ := List.exists_cons_of_ne_nil bound
  rw [Binding.tokensAll_eq, List.map_cons, List.flatMap_cons, List.cons_append, List.tail_cons]
    at enough ⊢
  rw [Binding.explicitAll_eq operator, List.map_cons, List.map_cons, List.append_assoc]
  have items : ∀ part ∈ (first :: others).map (Binding.part operator), ∀ rest, EndsPath rest →
      Takes binding (part.1 ++ rest) part.2 rest := by
    intro part member rest ends
    obtain ⟨source, listed, rfl⟩ := List.mem_map.mp member
    obtain ⟨named, readable⟩ := readable source listed
    refine takes named (readable.takes_operand within ?_ ends)
    have size : (Binding.part operator source).1.length ≤
        ((Binding.part operator first).1 ++ (others.map (Binding.part operator)).flatMap
          fun part => "," :: part.1).length := by
      rcases List.mem_cons.mp listed with rfl | later
      · simp
      · have part := (List.infix_of_mem_flatten (List.mem_map_of_mem
          (f := fun part : List String × Binding => "," :: part.1)
          (List.mem_map_of_mem (f := Binding.part operator) later))).length_le
        rw [← List.flatMap_def, List.length_cons] at part
        rw [List.length_append]
        omega
    rw [Binding.part, List.length_cons, List.length_cons] at size
    omega
  have all := takes_separated EndsPath (Binding.part operator first)
    (others.map (Binding.part operator)) rest takes_comma items
    (fun part member behind => by
      obtain ⟨source, _, rfl⟩ := List.mem_map.mp member
      exact .comma ((opensQuery_reference source.name _).append behind).refuses_pathAtom)
    ends (startsIn_comma.bind.refuses (by simpa using noComma))
  exact all.return (f := fun read => read.1 :: read.2)

theorem takes_forClause {bindings : List Binding} (readable : Binding.AllReadable room bindings)
    (bound : bindings ≠ []) (within : level ≤ room)
    (enough : (Binding.tokensAll "in" bindings).tail.length ≤ level) (ends : EndsPath rest)
    (noComma : lead rest ≠ some ',') :
    Takes (queriesAt room (level + 1)).forClause
      ("for" :: ((Binding.tokensAll "in" bindings).tail ++ rest)) (Binding.explicitAll bindings)
      rest :=
  ((takes_keyword (by decide) _).andThen (takes_bindings (fun named takes =>
    takes_inBinding (queriesAt room (level + 1)) named takes) readable bound within enough
    ends noComma)).rule

theorem takes_letClause {bindings : List Binding} (readable : Binding.AllReadable room bindings)
    (bound : bindings ≠ []) (within : level ≤ room)
    (enough : (Binding.tokensAll ":=" bindings).tail.length ≤ level) (ends : EndsPath rest)
    (noComma : lead rest ≠ some ',') :
    Takes (queriesAt room (level + 1)).letClause
      ("let" :: ((Binding.tokensAll ":=" bindings).tail ++ rest)) (Binding.explicitAll bindings)
      rest :=
  ((takes_keyword (by decide) _).andThen (takes_bindings (fun named takes =>
    takes_letBinding (queriesAt room (level + 1)) named takes) readable bound within enough
    ends noComma)).rule

theorem takes_optionalLets {lets : List Binding} (readable : Binding.AllReadable room lets)
    (within : level ≤ room) (enough : (Binding.tokensAll ":=" lets).tail.length ≤ level)
    (ends : EndsPath rest) (noComma : lead rest ≠ some ',') (noLet : lead rest ≠ some 'l') :
    ∃ taken : Option (List Binding), taken.getD [] = Binding.explicitAll lets ∧
      Takes (optional (queriesAt room (level + 1)).letClause)
        ((if lets.isEmpty then [] else "let" :: (Binding.tokensAll ":=" lets).tail) ++ rest) taken
        rest := by
  cases lets with
  | nil =>
      have refuses : Refuses (queriesAt room (level + 1)).letClause rest :=
        (startsIn_keyword (c := 'l') rfl).bind.rule.refuses (by simpa using noLet)
      exact ⟨none, rfl, refuses.optional⟩
  | cons first others =>
      exact ⟨_, rfl, (takes_letClause readable (List.cons_ne_nil _ _) within enough ends
        noComma).optional⟩

namespace Query

theorem Readable.letIn {bindings : List Binding} {body : Query}
    (readableBindings : Binding.AllReadable room bindings) (bound : bindings ≠ [])
    (readable : body.Readable room) : (Query.letIn bindings body).Readable room := by
  have spelled : ∀ rest, (Query.letIn bindings body).tokens ++ rest =
      "let" :: ((Binding.tokensAll ":=" bindings).tail ++ (body.tokens ++ rest)) := by
    simp [tokens]
  intro level enough within
  have size := congrArg List.length (spelled [])
  simp only [List.length_append, List.length_cons, List.length_nil] at size
  obtain _ | level := level
  · omega
  have nests := readable level (by omega) (by omega)
  refine .ofSingle (.inl (Nat.le_succ 1)) fun rest ends noComma => ?_
  rw [spelled, explicit]
  have opens := body.opensQuery.append rest
  have takesBody : Takes (queriesAt room (level + 1)).query (body.tokens ++ rest) body.explicit
      rest := nests.takes ends (noComma rfl)
  refine takes_outerSingle_letIn (Takes.rule ?_) (by simp)
  exact (takes_letClause readableBindings bound (by omega) (by omega) opens.endsPath
    (opens.lead_ne (by decide))).andThen (takesBody.return
      (f := fun body => Query.letIn (Binding.explicitAll bindings) body))

end Query

/-! ## What follows a condition -/

/-- Tokens that can follow a condition. -/
inductive EndsCondition : List String → Prop where
  | closing {token : String} (rest : List String) : token ∈ [")", "return", "and", "or"] →
      EndsCondition (token :: rest)

/-- Tokens that do not go on with a further member of a conjunction or disjunction. -/
def NoJunction (tokens : List String) : Prop :=
  tokens.head? ≠ some "and" ∧ tokens.head? ≠ some "or"

theorem EndsCondition.lead_ne (ends : EndsCondition tokens) {c : Char}
    (other : c ∉ [')', 'r', 'a', 'o']) : lead tokens ≠ some c := by
  obtain ⟨rest, listed⟩ := ends
  simp only [List.mem_cons, List.not_mem_nil, or_false] at listed
  intro same
  apply other
  rcases listed with rfl | rfl | rfl | rfl <;> cases same <;> decide

theorem EndsCondition.endsPath (ends : EndsCondition tokens) : EndsPath tokens :=
  .of_lead fun c listed => ends.lead_ne (by
    simp only [List.mem_cons, List.not_mem_nil, or_false] at listed
    rcases listed with rfl | rfl | rfl | rfl | rfl <;> decide)

theorem EndsCondition.refuses_keyword {α : Type} {next : Parser α} {name : Rule}
    {spelling : String} (ends : EndsCondition tokens) (junction : spelling ∈ ["and", "or"])
    (other : tokens.head? ≠ some spelling) :
    Refuses (do keyword name spelling; blanks; next) tokens := by
  obtain ⟨rest, listed⟩ := ends
  simp only [List.mem_cons, List.not_mem_nil, or_false] at junction listed
  rcases junction with rfl | rfl
  · refine (startsIn_keyword (c := 'a') rfl).bind.refuses ?_
    rcases listed with rfl | rfl | rfl | rfl
    exacts [by simp, by simp, absurd rfl other, by simp]
  · refine (startsIn_keyword (c := 'o') rfl).bind.refuses ?_
    rcases listed with rfl | rfl | rfl | rfl
    exacts [by simp, by simp, by simp, absurd rfl other]

/-! ## Parts of a condition -/

/-- A further member of a conjunction of conditions. -/
def furtherConjunct (inner : QueryLevel) : Parser Condition := do
  keyword .andKeyword "and"
  blanks
  inner.outerNegation

/-- A further member of a disjunction of conditions. -/
def furtherDisjunct (inner : QueryLevel) : Parser Condition := do
  keyword .orKeyword "or"
  blanks
  inner.conditionAnd

/-- What the rules of conditions do at the tokens of a condition, at some nesting level.  Where
parentheses around the condition are tried as those of a query, no query in front of a closing
parenthesis is found. -/
structure Condition.Nests (condition : Condition) (inner : QueryLevel) : Prop where
  negation : 2 ≤ condition.tightness → ∀ rest, EndsCondition rest →
    (condition.isOpenEnded = true → NoJunction rest) →
      Takes inner.outerNegation (condition.tokens ++ rest) condition.explicit rest
  ands : 1 ≤ condition.tightness → ∀ rest, EndsCondition rest →
    (condition.isOpenEnded = true → NoJunction rest) →
      Begins inner.outerNegation (furtherConjunct inner) .and (condition.tokens ++ rest)
        condition.explicit rest
  ors : ∀ rest, EndsCondition rest → (condition.isOpenEnded = true → NoJunction rest) →
    rest.head? ≠ some "and" →
      Begins inner.conditionAnd (furtherDisjunct inner) .or (condition.tokens ++ rest)
        condition.explicit rest
  noQuery : ∀ rest, EndsCondition rest →
    Refuses (do
      let query ← inner.outerQuery
      blanks
      literal ")"
      return query) (condition.tokens ++ rest)

/-- A condition that is read at every level that has room for its tokens. -/
def Condition.Readable (room : Nat) (condition : Condition) : Prop :=
  ∀ level, condition.tokens.length ≤ level → level ≤ room → condition.Nests (queriesAt room level)

namespace Condition

variable {condition : Condition} {inner : QueryLevel}

theorem takes_conditionAnd {value : Condition}
    (begins : Begins inner.outerNegation (furtherConjunct inner) .and tokens value rest)
    (ends : EndsCondition rest) (other : rest.head? ≠ some "and") :
    Takes inner.conditionAnd tokens value rest :=
  (begins.separated (ends.refuses_keyword (by simp) other)).rule

theorem Nests.takes_ands (nests : condition.Nests inner) (tight : 1 ≤ condition.tightness)
    (ends : EndsCondition rest) (free : condition.isOpenEnded = true → NoJunction rest)
    (other : rest.head? ≠ some "and") :
    Takes inner.conditionAnd (condition.tokens ++ rest) condition.explicit rest :=
  takes_conditionAnd (nests.ands tight rest ends free) ends other

theorem Nests.takes (nests : condition.Nests inner) (ends : EndsCondition rest)
    (free : NoJunction rest) :
    Takes inner.outerCondition (condition.tokens ++ rest) condition.explicit rest :=
  ((nests.ors rest ends (fun _ => free) free.1).separated
    (ends.refuses_keyword (by simp) free.2)).rule.rule

theorem Nests.ofOrs (loose : condition.tightness = 0)
    (ors : ∀ rest, EndsCondition rest → (condition.isOpenEnded = true → NoJunction rest) →
      rest.head? ≠ some "and" →
        Begins inner.conditionAnd (furtherDisjunct inner) .or (condition.tokens ++ rest)
          condition.explicit rest)
    (noQuery : ∀ rest, EndsCondition rest → Refuses (do
      let query ← inner.outerQuery
      blanks
      literal ")"
      return query) (condition.tokens ++ rest)) : condition.Nests inner where
  negation tight := absurd tight (by omega)
  ands tight := absurd tight (by omega)
  ors := ors
  noQuery := noQuery

theorem Nests.ofAnds (tight : condition.tightness = 1)
    (ands : ∀ rest, EndsCondition rest → (condition.isOpenEnded = true → NoJunction rest) →
      Begins inner.outerNegation (furtherConjunct inner) .and (condition.tokens ++ rest)
        condition.explicit rest)
    (noQuery : ∀ rest, EndsCondition rest → Refuses (do
      let query ← inner.outerQuery
      blanks
      literal ")"
      return query) (condition.tokens ++ rest)) : condition.Nests inner where
  negation tighter := absurd tighter (by omega)
  ands _ := ands
  ors rest ends free other := (takes_conditionAnd (ands rest ends free) ends other).begins
  noQuery := noQuery

theorem Nests.ofNegation
    (negation : ∀ rest, EndsCondition rest → (condition.isOpenEnded = true → NoJunction rest) →
      Takes inner.outerNegation (condition.tokens ++ rest) condition.explicit rest)
    (noQuery : ∀ rest, EndsCondition rest → Refuses (do
      let query ← inner.outerQuery
      blanks
      literal ")"
      return query) (condition.tokens ++ rest)) : condition.Nests inner where
  negation _ := negation
  ands _ rest ends free := (negation rest ends free).begins
  ors rest ends free other :=
    (takes_conditionAnd (negation rest ends free).begins ends other).begins
  noQuery := noQuery

theorem Nests.ofPrimary (noNot : ∀ rest, lead (condition.tokens ++ rest) ≠ some 'n')
    (primary : ∀ rest, EndsCondition rest → (condition.isOpenEnded = true → NoJunction rest) →
      Takes inner.conditionPrimary (condition.tokens ++ rest) condition.explicit rest)
    (noQuery : ∀ rest, EndsCondition rest → Refuses (do
      let query ← inner.outerQuery
      blanks
      literal ")"
      return query) (condition.tokens ++ rest)) : condition.Nests inner := by
  refine .ofNegation (fun rest ends free => ?_) noQuery
  have noKeyword : Refuses (keyword .notKeyword "not") (condition.tokens ++ rest) :=
    (startsIn_keyword (c := 'n') rfl).refuses (by simpa using noNot rest)
  exact (Takes.firstOf_cons noKeyword.bind (primary rest ends free).firstOf).rule

theorem refuses_outerQuery (refuses : Refuses inner.outerSingle tokens) :
    Refuses inner.outerQuery tokens :=
  refuses.bind.bind.rule

/-! ## Readable conditions -/

theorem Readable.empty {query : Query} (readable : query.Readable room) :
    (Condition.empty query).Readable room := by
  have spelled : ∀ rest, (Condition.empty query).tokens ++ rest =
      "empty" :: "(" :: (query.tokens ++ ")" :: rest) := by
    simp [tokens]
  intro level enough within
  have size := congrArg List.length (spelled [])
  simp only [List.length_append, List.length_cons, List.length_nil] at size
  obtain _ | level := level
  · omega
  have nests := readable level (by omega) (by omega)
  refine .ofPrimary (fun rest => by simp [spelled]) (fun rest _ _ => ?_) (fun rest _ => ?_)
  · have takes : Takes (queriesAt room (level + 1)).query (query.tokens ++ ")" :: rest)
        query.explicit (")" :: rest) := nests.takes (.of_lead (by simp)) (by simp)
    rw [spelled, explicit]
    exact ((takes_keyword (by decide) _).andThen
      (takes.enclosed.return (f := Condition.empty))).rule.firstOf.rule
  · rw [spelled]
    refine (refuses_outerQuery (refuses_outerSingle (by simp) ?_)).bind
    exact (startsIn_enclosed (c := '(') rfl).refuses (by simp)

theorem Readable.someSatisfies {bindings : List Binding} {body : Condition}
    (readableBindings : Binding.AllReadable room bindings) (bound : bindings ≠ [])
    (readable : body.Readable room) : (Condition.someSatisfies bindings body).Readable room := by
  have spelled : ∀ rest, (Condition.someSatisfies bindings body).tokens ++ rest = "some" ::
      ((Binding.tokensAll "in" bindings).tail ++ "satisfies" :: (body.tokens ++ rest)) := by
    simp [tokens]
  intro level enough within
  have size := congrArg List.length (spelled [])
  simp only [List.length_append, List.length_cons, List.length_nil] at size
  obtain _ | level := level
  · omega
  have nests := readable level (by omega) (by omega)
  have inside : level ≤ room := by omega
  refine .ofPrimary (fun rest => by simp [spelled]) (fun rest endsAll free => ?_) (fun rest _ => ?_)
  · have takesBody : Takes (queriesAt room (level + 1)).condition (body.tokens ++ rest)
        body.explicit rest := nests.takes endsAll (free rfl)
    have ends : EndsPath ("satisfies" :: (body.tokens ++ rest)) := .of_lead (by simp)
    have takesBindings := takes_bindings
      (fun named takes => takes_inBinding (queriesAt room (level + 1)) named takes)
      readableBindings bound inside (by omega) ends (by simp)
    rw [spelled, explicit]
    refine Takes.rule (.firstOf_cons ?_ (Takes.rule ?_).firstOf)
    · exact (startsIn_keyword (c := 'e') rfl).bind.rule.refuses (by simp)
    · exact (takes_keyword (by decide) _).andThen (takesBindings.andThen
        ((takes_keyword (by decide) _).andThen (takesBody.return
          (f := fun body => Condition.someSatisfies (Binding.explicitAll bindings) body))))
  · rw [spelled]
    refine (refuses_outerQuery (refuses_outerSingle (by simp) ?_)).bind
    exact (startsIn_enclosed (c := '(') rfl).refuses (by simp)

/-- The condition that compares two queries. -/
def comparing (left right : Query) : Comparison → Condition
  | .identity => .identityEq left right
  | .value => .valueEq left right

theorem Readable.ofComparison (sign : String) (compared : Comparison) {left right : Query}
    (readableLeft : left.Readable room) (readableRight : right.Readable room)
    (spelled : ∀ rest, condition.tokens ++ rest = enclosedIf left.needsParentheses left.tokens ++
      sign :: (enclosedIf right.needsParentheses right.tokens ++ rest))
    (value : condition.explicit =
      comparing (left.explicit.parenthesizedIf left.needsParentheses)
        (right.explicit.parenthesizedIf right.needsParentheses) compared)
    (apart : ∀ c ∈ [')', '.', '(', '[', '/', ','], lead [sign] ≠ some c)
    (takesSign : ∀ rest, OpensQuery rest → Takes comparison (sign :: rest) compared rest) :
    condition.Readable room := by
  intro level enough within
  have size := congrArg List.length (spelled [])
  simp only [List.length_append, List.length_cons, List.length_nil] at size
  have opensLeft : ∀ rest, OpensQuery (condition.tokens ++ rest) := by
    intro rest
    rw [spelled]
    exact (opensQuery_enclosedIf _ left.opensQuery).append _
  have ends : ∀ rest, EndsPath (sign :: rest) :=
    fun rest => .of_lead fun c listed => apart c (List.mem_cons_of_mem _ listed)
  have inside : level ≤ room := by omega
  have takesLeft := fun rest => readableLeft.takes_operand inside (by omega) (ends rest)
  refine .ofPrimary (fun rest => (opensLeft rest).lead_ne (by decide)) (fun rest endsAll _ => ?_)
    (fun rest _ => ?_)
  · have takesRight := readableRight.takes_operand inside (by omega) endsAll.endsPath
    have opens := (opensQuery_enclosedIf right.needsParentheses right.opensQuery).append rest
    refine Takes.rule (.firstOf_cons ?_ (.firstOf_cons ?_ (Takes.rule ?_).firstOf))
    · exact (startsIn_keyword (c := 'e') rfl).bind.rule.refuses
        (by simpa using (opensLeft rest).lead_ne (by decide))
    · exact (startsIn_keyword (c := 's') rfl).bind.rule.refuses
        (by simpa using (opensLeft rest).lead_ne (by decide))
    · rw [spelled, value]
      exact (takesLeft _).andThen ((takesSign _ opens).andThen
        (f := fun compared => do
          return comparing _ (← (queriesAt room level).outerSingle) compared) takesRight.return)
  · have noComma : Refuses (furtherQuery (queriesAt room level))
        (sign :: (enclosedIf right.needsParentheses right.tokens ++ rest)) :=
      startsIn_comma.bind.refuses (by simpa using apart ',' (by simp))
    rw [spelled]
    refine ((takesLeft _).begins.separated noComma).rule.andThen_refuses ?_
    exact (startsIn_literal (c := ')') rfl).bind.refuses (by simpa using apart ')' (by simp))

theorem Readable.valueEq {left right : Query} (readableLeft : left.Readable room)
    (readableRight : right.Readable room) : (Condition.valueEq left right).Readable room :=
  .ofComparison "=" .value readableLeft readableRight
    (fun rest => by simp [tokens]) (by rw [explicit]; rfl) (by simp)
    fun _ opens => takes_comparison_value (opens.lead_ne (by decide))

theorem Readable.identityEq {left right : Query} (readableLeft : left.Readable room)
    (readableRight : right.Readable room) : (Condition.identityEq left right).Readable room :=
  .ofComparison "==" .identity readableLeft readableRight
    (fun rest => by simp [tokens]) (by rw [explicit]; rfl) (by simp)
    fun _ _ => takes_comparison_identity _

theorem Readable.parenthesized {inner : Condition} (readable : inner.Readable room) :
    (Condition.parenthesized inner).Readable room := by
  have spelled : ∀ rest, (Condition.parenthesized inner).tokens ++ rest =
      "(" :: (inner.tokens ++ ")" :: rest) := by
    simp [tokens_parenthesized]
  intro level enough within
  have size := congrArg List.length (spelled [])
  simp only [List.length_append, List.length_cons, List.length_nil] at size
  obtain _ | level := level
  · omega
  have nests := readable level (by omega) (by omega)
  have noSingle : ∀ rest, Refuses (queriesAt room (level + 1)).outerSingle
      ((Condition.parenthesized inner).tokens ++ rest) := by
    intro rest
    rw [spelled]
    refine refuses_outerSingle (by simp) ((takes_literal "(" _).andThen_refuses ?_)
    exact nests.noQuery (")" :: rest) (.closing rest (by simp))
  refine .ofPrimary (fun rest => by simp [spelled]) (fun rest _ _ => ?_)
    (fun rest _ => (refuses_outerQuery (noSingle rest)).bind)
  have takes : Takes (queriesAt room (level + 1)).condition (inner.tokens ++ ")" :: rest)
      inner.explicit (")" :: rest) :=
    nests.takes (.closing rest (by simp)) ⟨by simp, by simp⟩
  refine Takes.rule (.firstOf_cons ?_ (.firstOf_cons ?_ (.firstOf_cons ?_ ?_)))
  · exact (startsIn_keyword (c := 'e') rfl).bind.rule.refuses (by simp [spelled])
  · exact (startsIn_keyword (c := 's') rfl).bind.rule.refuses (by simp [spelled])
  · exact (noSingle rest).bind.rule
  · rw [spelled, explicit]
    exact (takes.enclosed.return (f := Condition.parenthesized)).rule.firstOf

theorem Readable.parenthesizedIf (readable : condition.Readable room) (needed : Bool) :
    (condition.parenthesizedIf needed).Readable room := by
  cases needed with
  | false => exact readable
  | true => exact readable.parenthesized

theorem le_tightness_parenthesizedIf (condition : Condition) {needed : Bool} {demanded : Nat}
    (within : demanded ≤ 3) (tight : needed = false → demanded ≤ condition.tightness) :
    demanded ≤ (condition.parenthesizedIf needed).tightness := by
  cases needed with
  | false => exact tight rfl
  | true => exact within

theorem Readable.and {left right : Condition} (readableLeft : left.Readable room)
    (readableRight : right.Readable room) : (Condition.and left right).Readable room := by
  have spelled : ∀ rest, (Condition.and left right).tokens ++ rest =
      (left.parenthesizedIf (left.isOpenEnded || left.tightness < 1)).tokens ++
        "and" :: ((right.parenthesizedIf (right.tightness < 2)).tokens ++ rest) := by
    simp [tokens, tokens_parenthesizedIf]
  intro level enough within
  have size := congrArg List.length (spelled [])
  simp only [List.length_append, List.length_cons, List.length_nil] at size
  have readLeft := readableLeft.parenthesizedIf (left.isOpenEnded || left.tightness < 1) level
    (by omega) within
  have readRight := readableRight.parenthesizedIf (right.tightness < 2) level (by omega) within
  have endsLeft : ∀ rest, EndsCondition ("and" :: rest) := fun rest => .closing rest (by simp)
  refine .ofAnds rfl (fun rest ends free => ?_) (fun rest _ => ?_)
  · rw [spelled, explicit, ← explicit_parenthesizedIf, ← explicit_parenthesizedIf]
    refine (readLeft.ands ?_ _ (endsLeft _) ?_).next ?_
      (by simp only [List.length_append, List.length_cons]; omega)
    · exact left.le_tightness_parenthesizedIf (by omega) fun bare =>
        Nat.not_lt.mp (of_decide_eq_false (Bool.or_eq_false_iff.mp bare).2)
    · rw [isOpenEnded_parenthesizedIf]
      cases left.isOpenEnded <;> simp
    · refine (takes_keyword (by decide) _).andThen (readRight.negation ?_ rest ends ?_)
      · exact right.le_tightness_parenthesizedIf (by omega) fun bare =>
          Nat.not_lt.mp (of_decide_eq_false bare)
      · intro opened
        rw [isOpenEnded_parenthesizedIf, Bool.and_eq_true] at opened
        exact free opened.2
  · rw [spelled]
    exact readLeft.noQuery _ (endsLeft _)

theorem Readable.or {left right : Condition} (readableLeft : left.Readable room)
    (readableRight : right.Readable room) : (Condition.or left right).Readable room := by
  have spelled : ∀ rest, (Condition.or left right).tokens ++ rest =
      (left.parenthesizedIf left.isOpenEnded).tokens ++
        "or" :: ((right.parenthesizedIf (right.tightness < 1)).tokens ++ rest) := by
    simp [tokens, tokens_parenthesizedIf]
  intro level enough within
  have size := congrArg List.length (spelled [])
  simp only [List.length_append, List.length_cons, List.length_nil] at size
  have readLeft := readableLeft.parenthesizedIf left.isOpenEnded level (by omega) within
  have readRight := readableRight.parenthesizedIf (right.tightness < 1) level (by omega) within
  have endsLeft : ∀ rest, EndsCondition ("or" :: rest) := fun rest => .closing rest (by simp)
  refine .ofOrs rfl (fun rest ends free other => ?_) (fun rest _ => ?_)
  · rw [spelled, explicit, ← explicit_parenthesizedIf, ← explicit_parenthesizedIf]
    refine (readLeft.ors _ (endsLeft _) ?_ (by simp)).next ?_
      (by simp only [List.length_append, List.length_cons]; omega)
    · rw [isOpenEnded_parenthesizedIf]
      cases left.isOpenEnded <;> simp
    · refine (takes_keyword (by decide) _).andThen (readRight.takes_ands ?_ ends ?_ other)
      · exact right.le_tightness_parenthesizedIf (by omega) fun bare =>
          Nat.not_lt.mp (of_decide_eq_false bare)
      · intro opened
        rw [isOpenEnded_parenthesizedIf, Bool.and_eq_true] at opened
        exact free opened.2
  · rw [spelled]
    exact readLeft.noQuery _ (endsLeft _)

theorem Readable.not {inner : Condition} (readable : inner.Readable room) :
    (Condition.not inner).Readable room := by
  have spelled : ∀ rest, (Condition.not inner).tokens ++ rest =
      "not" :: ((inner.parenthesizedIf (inner.tightness < 2)).tokens ++ rest) := by
    simp [tokens, tokens_parenthesizedIf]
  intro level enough within
  have size := congrArg List.length (spelled [])
  simp only [List.length_append, List.length_cons, List.length_nil] at size
  obtain _ | level := level
  · omega
  have read := readable.parenthesizedIf (inner.tightness < 2) level (by omega) (by omega)
  refine .ofNegation (fun rest ends free => ?_) (fun rest _ => ?_)
  · have takes : Takes (queriesAt room (level + 1)).negation
        ((inner.parenthesizedIf (inner.tightness < 2)).tokens ++ rest)
        (inner.parenthesizedIf (inner.tightness < 2)).explicit rest := by
      refine read.negation ?_ rest ends ?_
      · exact inner.le_tightness_parenthesizedIf (by omega) fun bare =>
          Nat.not_lt.mp (of_decide_eq_false bare)
      · intro opened
        rw [isOpenEnded_parenthesizedIf, Bool.and_eq_true] at opened
        exact free opened.2
    rw [spelled, explicit, ← explicit_parenthesizedIf]
    exact ((takes_keyword (by decide) _).andThen (takes.return (f := Condition.not))).firstOf.rule
  · rw [spelled]
    refine (refuses_outerQuery (refuses_outerSingle (by simp) ?_)).bind
    exact (startsIn_enclosed (c := '(') rfl).refuses (by simp)

end Condition

/-! ## Expressions with clauses -/

theorem takes_optionalWhere (rest : List String) {condition : Option Condition}
    (readable : ∀ present ∈ condition, present.Readable room) (within : level ≤ room)
    (enough : (Condition.tokensWhere condition).length ≤ level + 1) :
    Takes (optional (queriesAt room (level + 1)).whereClause)
      (Condition.tokensWhere condition ++ "return" :: rest) (Condition.explicitIfPresent condition)
      ("return" :: rest) := by
  cases condition with
  | none =>
      exact ((startsIn_keyword (c := 'w') rfl).bind.rule.refuses
        (by simp [Condition.tokensWhere])).optional
  | some present =>
      rw [Condition.tokensWhere, List.length_cons] at enough
      have takes : Takes (queriesAt room (level + 1)).condition
          (present.tokens ++ "return" :: rest) present.explicit ("return" :: rest) :=
        (readable present rfl level (by omega) within).takes (.closing rest (by simp))
          ⟨by simp, by simp⟩
      exact ((takes_keyword (by decide) _).andThen takes).rule.optional

theorem Query.Readable.flwr {bindings lets : List Binding} {condition : Option Condition}
    {result : Query} (readableBindings : Binding.AllReadable room bindings)
    (bound : bindings ≠ []) (readableLets : Binding.AllReadable room lets)
    (readableCondition : ∀ present ∈ condition, present.Readable room)
    (readable : result.Readable room) :
    (Query.flwr bindings lets condition result).Readable room := by
  have spelled : ∀ rest, (Query.flwr bindings lets condition result).tokens ++ rest =
      "for" :: ((Binding.tokensAll "in" bindings).tail ++
        ((if lets.isEmpty then [] else "let" :: (Binding.tokensAll ":=" lets).tail) ++
          (Condition.tokensWhere condition ++ "return" :: (result.tokens ++ rest)))) := by
    simp [tokens]
  intro level enough within
  have size := congrArg List.length (spelled [])
  simp only [List.length_append, List.length_cons, List.length_nil] at size
  have sizeLets : (Binding.tokensAll ":=" lets).tail.length ≤
      (if lets.isEmpty then [] else "let" :: (Binding.tokensAll ":=" lets).tail).length := by
    cases lets <;> simp [Binding.tokensAll]
  obtain _ | level := level
  · omega
  have nests := readable level (by omega) (by omega)
  refine .ofSingle (.inl (Nat.le_succ 1)) fun rest ends noComma => ?_
  have takesResult : Takes (queriesAt room (level + 1)).query (result.tokens ++ rest)
      result.explicit rest := nests.takes ends (noComma rfl)
  have takesReturn : Takes (queriesAt room (level + 1)).returnClause
      ("return" :: (result.tokens ++ rest)) result.explicit rest :=
    ((takes_keyword (by decide) _).andThen takesResult).rule
  have leadWhere : ∀ c ∈ ['.', '(', '[', '/', ',', 'l'],
      lead (Condition.tokensWhere condition ++ "return" :: (result.tokens ++ rest)) ≠ some c := by
    cases condition <;> simp [Condition.tokensWhere]
  have endsLets : EndsPath
      (Condition.tokensWhere condition ++ "return" :: (result.tokens ++ rest)) :=
    .of_lead fun c listed => leadWhere c (List.mem_append_left ['l'] listed)
  have leadLets : ∀ c ∈ ['.', '(', '[', '/', ','],
      lead ((if lets.isEmpty then [] else "let" :: (Binding.tokensAll ":=" lets).tail) ++
        (Condition.tokensWhere condition ++ "return" :: (result.tokens ++ rest))) ≠ some c := by
    cases lets with
    | nil => exact fun c listed => leadWhere c (List.mem_append_left ['l'] listed)
    | cons _ _ => simp
  have inside : level ≤ room := by omega
  obtain ⟨taken, same, takesLets⟩ := takes_optionalLets readableLets inside (by omega)
    endsLets (leadWhere ',' (by simp)) (leadWhere 'l' (by simp))
  rw [spelled, explicit, ← same]
  have takesFor := takes_forClause readableBindings bound inside (by omega)
    (.of_lead leadLets) (leadLets ',' (by simp))
  have takesWhere := takes_optionalWhere (result.tokens ++ rest) readableCondition inside (by omega)
  exact takes_outerSingle_flwr (takes_flwr takesFor takesLets takesWhere takesReturn)

/-! ## All printable queries -/

section

variable {binder : String → Bool}

mutual
/-- The tokens of a printable query are read as the query with its parentheses explicit. -/
theorem Query.readable : (query : Query) →
    query.isPrintableWith binder (fun base => !base.endsInPath) = true → query.Readable room
  | .reference _, printable => .reference printable
  | .constant _, printable => .constant printable
  | .document _, printable => .document printable
  | .parenthesized inner, printable => (inner.readable printable).parenthesized
  | .pair left right, printable => by
      rw [Query.isPrintableWith, Bool.and_eq_true] at printable
      exact (left.readable printable.1).pair (right.readable printable.2)
  | .step base _ path, printable => by
      rw [Query.isPrintableWith, Bool.and_eq_true, Bool.and_eq_true] at printable
      exact (base.readable printable.1.2).step (by simpa using printable.1.1) printable.2
  | .element _ body, printable => by
      rw [Query.isPrintableWith, Bool.and_eq_true] at printable
      exact .element printable.1 (body.readable printable.2)
  | .join left right _ _, printable => by
      rw [Query.isPrintableWith, Bool.and_eq_true, Bool.and_eq_true, Bool.and_eq_true] at printable
      exact (left.readable printable.1.1.1).join (right.readable printable.1.1.2)
        (List.all_eq_true.mp printable.1.2) (List.all_eq_true.mp printable.2)
  | .letIn bindings body, printable => by
      rw [Query.isPrintableWith, Bool.and_eq_true, Bool.and_eq_true] at printable
      exact .letIn (Binding.readableAll bindings printable.1.2) (by simpa using printable.1.1)
        (body.readable printable.2)
  | .flwr bindings lets condition result, printable => by
      rw [Query.isPrintableWith, Bool.and_eq_true, Bool.and_eq_true, Bool.and_eq_true,
        Bool.and_eq_true] at printable
      exact .flwr (Binding.readableAll bindings printable.1.1.1.2)
        (by simpa using printable.1.1.1.1) (Binding.readableAll lets printable.1.1.2)
        (Condition.readableIfPresent condition printable.1.2) (result.readable printable.2)

/-- The tokens of a printable condition are read as the condition with its parentheses
explicit. -/
theorem Condition.readable : (condition : Condition) →
    condition.isPrintableWith binder (fun base => !base.endsInPath) = true →
      condition.Readable room
  | .valueEq left right, printable => by
      rw [Condition.isPrintableWith, Bool.and_eq_true] at printable
      exact .valueEq (left.readable printable.1) (right.readable printable.2)
  | .identityEq left right, printable => by
      rw [Condition.isPrintableWith, Bool.and_eq_true] at printable
      exact .identityEq (left.readable printable.1) (right.readable printable.2)
  | .empty query, printable => .empty (query.readable printable)
  | .someSatisfies bindings body, printable => by
      rw [Condition.isPrintableWith, Bool.and_eq_true, Bool.and_eq_true] at printable
      exact .someSatisfies (Binding.readableAll bindings printable.1.2)
        (by simpa using printable.1.1) (body.readable printable.2)
  | .parenthesized inner, printable => (inner.readable printable).parenthesized
  | .and left right, printable => by
      rw [Condition.isPrintableWith, Bool.and_eq_true] at printable
      exact (left.readable printable.1).and (right.readable printable.2)
  | .or left right, printable => by
      rw [Condition.isPrintableWith, Bool.and_eq_true] at printable
      exact (left.readable printable.1).or (right.readable printable.2)
  | .not inner, printable => (inner.readable printable).not

theorem Condition.readableIfPresent : (condition : Option Condition) →
    Condition.isPrintableIfPresent binder (fun base => !base.endsInPath) condition = true →
      ∀ present ∈ condition, present.Readable room
  | none, _ => nofun
  | some condition, printable => by
      rintro _ ⟨rfl⟩
      exact condition.readable printable

theorem Binding.readableAll : (bindings : List Binding) →
    Binding.arePrintableWith binder (fun base => !base.endsInPath) bindings = true →
      Binding.AllReadable room bindings
  | [], _ => nofun
  | ⟨name, source⟩ :: rest, printable => by
      rw [Binding.arePrintableWith, Bool.and_eq_true, Bool.and_eq_true, Bool.and_eq_true]
        at printable
      intro binding member
      rcases List.mem_cons.mp member with rfl | later
      · exact ⟨printable.1.1.1, source.readable printable.1.2⟩
      · exact Binding.readableAll rest printable.2 binding later
end

end

end TreeQuery
