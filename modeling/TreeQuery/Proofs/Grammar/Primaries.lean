import TreeQuery.Proofs.Grammar.Paths
import TreeQuery.Proofs.Query.Tokens

/-!
# Reading primary queries

What the tokens of a query start with, and what the rules of primary queries, of paths off
them and of single queries do at such tokens.  A comma can separate paths and queries alike;
as no path starts as a query does, a path in a query ends at a comma in front of a query.
-/

set_option autoImplicit false

namespace TreeQuery

open TreeQuery.Grammar.Parser TreeQuery.Grammar

variable {level : Nat} {tokens rest : List String}

/-! ## What a query starts with -/

/-- Tokens that start as those of a query do. -/
inductive OpensQuery : List String → Prop where
  | sign {token : String} {c : Char} {others : List Char} (rest : List String) :
      token.toList = c :: others → c ∈ ['$', '\x22', '<'] → OpensQuery (token :: rest)
  | word {token : String} (rest : List String) : token ∈ ["doc", "join", "for", "let"] →
      OpensQuery (token :: rest)
  | parenthesis {tokens : List String} : OpensQuery tokens → OpensQuery ("(" :: tokens)

namespace OpensQuery

theorem append (opens : OpensQuery tokens) (rest : List String) : OpensQuery (tokens ++ rest) := by
  induction opens with
  | sign others spelled listed => exact .sign (others ++ rest) spelled listed
  | word others listed => exact .word (others ++ rest) listed
  | parenthesis _ ih => exact .parenthesis ih

theorem lead_ne (opens : OpensQuery tokens) {c : Char}
    (other : c ∉ ['$', '\x22', '<', 'd', 'j', 'f', 'l', '(']) : lead tokens ≠ some c := by
  intro same
  apply other
  cases opens with
  | sign rest spelled listed =>
      rw [lead_cons, spelled] at same
      cases same
      exact List.mem_append_left ['d', 'j', 'f', 'l', '('] listed
  | word rest listed =>
      simp only [List.mem_cons, List.not_mem_nil, or_false] at listed
      rcases listed with rfl | rfl | rfl | rfl <;> cases same <;> decide
  | parenthesis _ =>
      cases same
      decide

/-- No path starts as a query does. -/
theorem refuses_pathAtom (opens : OpensQuery tokens) :
    ∀ level, Refuses (pathLevel level).pathAtom tokens := by
  induction opens with
  | sign rest spelled listed =>
      intro level
      simp only [List.mem_cons, List.not_mem_nil, or_false] at listed
      refine TreeQuery.refuses_pathAtom (fun c member same => ?_)
        ((startsIn_enclosed (c := '(') rfl).refuses ?_) (refuses_tagStep fun c same => ?_)
      · rw [lead_cons, spelled] at same
        cases same
        revert member
        rcases listed with rfl | rfl | rfl <;> decide
      · rw [lead_cons, spelled]
        rcases listed with rfl | rfl | rfl <;> simp
      · rw [lead_cons, spelled] at same
        cases same
        rcases listed with rfl | rfl | rfl <;> decide
  | word rest listed =>
      have reserved : ∀ token ∈ ["doc", "join", "for", "let"], token ∈ reservedWords := by decide
      exact fun level => refuses_pathAtom_of_reserved (reserved _ listed) rest
  | parenthesis _ ih =>
      intro level
      refine refuses_pathAtom_of_parentheses (Refuses.bind ?_)
      cases level with
      | zero => exact fun text _ => fails_fail (Parser.skip text)
      | succ level => exact refuses_outerPath (ih level)

/-- A path in front of a query ends there. -/
theorem endsPath (opens : OpensQuery tokens) : EndsPath tokens where
  noStep := opens.lead_ne (by decide)
  noCall paren := by
    cases opens with
    | sign rest spelled listed =>
        rw [lead_cons, spelled] at paren
        cases paren
        exact absurd listed (by decide)
    | word rest listed =>
        have others : ∀ token ∈ ["doc", "join", "for", "let"], token.toList.head? ≠ some '(' := by
          decide
        exact absurd paren (others _ listed)
    | parenthesis opens => exact ⟨_, rfl, opens.lead_ne (by decide)⟩
  noFilter := opens.lead_ne (by decide)
  noAxis := opens.lead_ne (by decide)
  noPair _ := startsIn_comma.bind.refuses (by simpa using opens.lead_ne (by decide))

end OpensQuery

/-- A path in front of a comma ends there if no path follows the comma. -/
theorem EndsPath.comma (refuses : ∀ level, Refuses (pathLevel level).pathAtom tokens) :
    EndsPath ("," :: tokens) where
  noStep := by simp
  noCall paren := by simp at paren
  noFilter := by simp
  noAxis := by simp
  noPair level := (takes_literal "," tokens).andThen_refuses (refuses_pathSteps (refuses level))

theorem opensQuery_enclosedIf (needed : Bool) (opens : OpensQuery tokens) :
    OpensQuery (enclosedIf needed tokens) := by
  cases needed with
  | false => exact opens
  | true => exact .parenthesis (opens.append [")"])

theorem opensQuery_reference (name : String) (rest : List String) :
    OpensQuery (referenceToken name :: rest) :=
  @OpensQuery.sign (referenceToken name) '$' name.toList rest (by simp [referenceToken]) (by decide)

theorem Query.opensQuery (query : Query) : OpensQuery query.tokens := by
  cases query with
  | reference name => exact opensQuery_reference name []
  | constant value =>
      exact @OpensQuery.sign (stringToken value) '\x22' (value ++ "\"").toList []
        (by simp [stringToken]) (by decide)
  | parenthesized inner => exact opensQuery_enclosedIf _ inner.opensQuery
  | pair left _ => exact (opensQuery_enclosedIf _ left.opensQuery).append _
  | step base _ _ => exact (opensQuery_enclosedIf _ base.opensQuery).append _
  | element _ _ => exact .sign _ rfl (by decide)
  | document _ | join _ _ _ _ | letIn _ _ | flwr _ _ _ _ => exact .word _ (by decide)

/-! ## Primary queries and paths off them -/

section

variable {inner : QueryLevel}

theorem startsIn_documentPath (path : Parser Path) : StartsIn (documentPath path) ['d'] := by
  have words : ∀ spelling ∈ ["document", "doc"],
      ∃ c ∈ ['d'], ∃ rest, spelling.toList = c :: rest := by
    simp
  exact (startsIn_word words).rule.bind.rule.bind.rule

theorem startsIn_join : StartsIn inner.join ['j'] := (startsIn_keyword rfl).bind.rule

theorem startsIn_element : StartsIn inner.element ['<'] := (startsIn_literal rfl).bind.rule

theorem startsIn_flwr : StartsIn inner.flwr ['f'] := (startsIn_keyword rfl).bind.rule.bind.rule

theorem startsIn_letIn : StartsIn inner.letIn ['l'] := (startsIn_keyword rfl).bind.rule.bind.rule

theorem takes_queryPrimary_document {path : DocumentPath}
    (takes : Takes (documentPath inner.path) tokens path rest) :
    Takes inner.queryPrimary tokens (.document path) rest :=
  takes.return.firstOf.rule

theorem takes_queryPrimary_reference {name : String} (named : isName name = true) :
    Takes inner.queryPrimary (referenceToken name :: rest) (.reference name) rest := by
  refine Takes.rule (.firstOf_cons ((startsIn_documentPath _).bind.refuses ?_) ?_)
  · simp [referenceToken]
  · exact (takes_reference named rest).return.firstOf

theorem takes_queryPrimary_constant {value : String} (quotable : isQuotable value = true) :
    Takes inner.queryPrimary (stringToken value :: rest) (.constant value) rest := by
  refine Takes.rule (.firstOf_cons ((startsIn_documentPath _).bind.refuses ?_) ?_)
  · simp [stringToken]
  refine .firstOf_cons (startsIn_reference.bind.refuses ?_) ?_
  · simp [stringToken]
  · exact (takes_stringLiteral quotable rest).return.firstOf

/-- At tokens that start with no earlier sign, the later primary queries are left. -/
theorem takes_queryPrimary {value : Query}
    (differs : ∀ c ∈ ['d', '$', '\x22'], lead tokens ≠ some c)
    (takes : Takes (firstOf [
      inner.join,
      inner.element,
      rule .queryParentheses do
        return Query.parenthesized (← enclosed "(" inner.query ")")]) tokens value rest) :
    Takes inner.queryPrimary tokens value rest := by
  have apart : ∀ c ∈ ['d', '$', '\x22'], ∀ d ∈ [c], lead tokens ≠ some d := by
    intro c listed d same
    exact List.mem_singleton.mp same ▸ differs c listed
  refine Takes.rule (.firstOf_cons ((startsIn_documentPath _).bind.refuses
      (apart 'd' (by simp))) ?_)
  refine .firstOf_cons (startsIn_reference.bind.refuses (apart '$' (by simp))) ?_
  exact .firstOf_cons (startsIn_stringLiteral.bind.refuses (apart '\x22' (by simp))) takes

theorem takes_queryParentheses {value : Query}
    (takes : Takes inner.query tokens value (")" :: rest)) :
    Takes inner.queryPrimary ("(" :: tokens) (.parenthesized value) rest := by
  refine takes_queryPrimary (by simp) ?_
  refine .firstOf_cons (startsIn_join.refuses (by simp)) ?_
  refine .firstOf_cons (startsIn_element.refuses (by simp)) ?_
  exact (takes.enclosed.return (f := Query.parenthesized)).rule.firstOf

/-- A constructor whose closing tag repeats its opening tag. -/
theorem takes_element {name : String} {value : Query} (named : isName name = true)
    (takes : Takes inner.query tokens value ("\x7d" :: "<" :: "/" :: name :: ">" :: rest)) :
    Takes inner.queryPrimary ("<" :: name :: ">" :: "\x7b" :: tokens)
      (.element name value) rest := by
  refine takes_queryPrimary (by simp) (.firstOf_cons (startsIn_join.refuses (by simp)) ?_)
  have closes : Takes (do literal ">"; noteTags name name; return Query.element name value)
      (">" :: rest) (.element name value) rest := by
    intro text layout
    obtain ⟨last, layout, reads⟩ := takes_literal ">" rest text layout
    exact ⟨last, layout, reads.bind ((reads_noteTags name last).bind .pure)⟩
  refine Takes.firstOf (Takes.rule ?_)
  exact (takes_literal "<" _).andThen ((takes_identifier named _).andThen
    ((takes_literal ">" _).andThen (takes.enclosed.andThen ((takes_literal "<" _).andThen
      ((takes_literal "/" _).andThen ((takes_identifier named _).andThen closes))))))

theorem takes_tagList {tags : List String} (named : ∀ tag ∈ tags, isName tag = true) :
    Takes QueryLevel.tagList (tagTokens tags ++ rest) tags rest := by
  have stop : Refuses (do comma; blanks; identifier) ("]" :: rest) :=
    startsIn_comma.bind.refuses (by simp)
  cases tags with
  | nil =>
      have noTag : Refuses (separated comma identifier) ("]" :: rest) :=
        (refuses_identifier (by simp; decide)).bind
      exact (Takes.return noTag.optional.enclosed).rule
  | cons first others =>
      have takes := takes_separated (fun _ => True) ([first], first)
        (others.map fun tag => ([tag], tag)) ("]" :: rest) takes_comma
        (fun part member behind _ => by
          obtain ⟨tag, listed, rfl⟩ : ∃ tag ∈ first :: others, ([tag], tag) = part :=
            List.mem_map.mp member
          exact takes_identifier (named tag listed) behind)
        (fun _ _ _ => trivial) trivial stop
      have spelled : tagTokens (first :: others) ++ rest = "[" :: ([first] ++
          ((others.map fun tag => ([tag], tag)).flatMap (fun part => "," :: part.1) ++
            "]" :: rest)) := by
        simp [tagTokens, List.flatMap_map]
      have names : (others.map fun tag => ([tag], tag)).map (·.2) = others := by
        simp [Function.comp_def]
      rw [names] at takes
      rw [spelled]
      exact (Takes.return takes.optional.enclosed).rule

theorem takes_queryPath {value : Query} (takes : Takes inner.queryPrimary tokens value rest)
    (noAxis : lead rest ≠ some '/') : Takes inner.queryPath tokens value rest := by
  have stop : Refuses (do
      let axis ← axis
      blanks
      return (axis, ← inner.path)) rest := startsIn_axis.bind.refuses (by simpa using noAxis)
  exact (takes.andThen (Takes.return stop.optional)).rule

theorem takes_queryPath_step {base : Query} {axis : Axis} {path : Path}
    (takes : Takes inner.queryPrimary tokens base (axis.separator :: rest))
    (noAxis : lead rest ≠ some '/') {behind : List String}
    (takesPath : Takes inner.path rest path behind) :
    Takes inner.queryPath tokens (.step base axis path) behind := by
  have continuation := ((takes_axis axis noAxis).andThen
    (f := fun axis => do return (axis, ← inner.path)) takesPath.return).optional
  exact (takes.andThen (Takes.return continuation)).rule

theorem takes_outerSingle_path {value : Query} (takes : Takes inner.queryPath tokens value rest)
    (noFor : lead tokens ≠ some 'f') (noLet : lead tokens ≠ some 'l') :
    Takes inner.outerSingle tokens value rest := by
  refine Takes.rule (.firstOf_cons (startsIn_flwr.refuses (by simpa using noFor)) ?_)
  exact .firstOf_cons (startsIn_letIn.refuses (by simpa using noLet)) takes.firstOf

theorem takes_outerSingle_flwr {value : Query} (takes : Takes inner.flwr tokens value rest) :
    Takes inner.outerSingle tokens value rest :=
  takes.firstOf.rule

theorem takes_outerSingle_letIn {value : Query} (takes : Takes inner.letIn tokens value rest)
    (noFor : lead tokens ≠ some 'f') : Takes inner.outerSingle tokens value rest :=
  (Takes.firstOf_cons (startsIn_flwr.refuses (by simpa using noFor)) takes.firstOf).rule

/-- Where nothing starts a single query but parentheses around none, there is no query. -/
theorem refuses_outerSingle (differs : ∀ c ∈ ['d', '$', '\x22', 'j', '<', 'f', 'l'],
      lead tokens ≠ some c) (noParentheses : Refuses (enclosed "(" inner.query ")") tokens) :
    Refuses inner.outerSingle tokens := by
  have apart : ∀ c ∈ ['d', '$', '\x22', 'j', '<', 'f', 'l'], ∀ d ∈ [c], lead tokens ≠ some d := by
    intro c listed d same
    exact List.mem_singleton.mp same ▸ differs c listed
  refine (Refuses.firstOf fun parser member => ?_).rule
  simp only [List.mem_cons, List.not_mem_nil, or_false] at member
  rcases member with rfl | rfl | rfl
  · exact startsIn_flwr.refuses (apart 'f' (by simp))
  · exact startsIn_letIn.refuses (apart 'l' (by simp))
  · refine (Refuses.bind (Refuses.rule (Refuses.firstOf fun parser member => ?_))).rule
    simp only [List.mem_cons, List.not_mem_nil, or_false] at member
    rcases member with rfl | rfl | rfl | rfl | rfl | rfl
    · exact (startsIn_documentPath _).bind.refuses (apart 'd' (by simp))
    · exact startsIn_reference.bind.refuses (apart '$' (by simp))
    · exact startsIn_stringLiteral.bind.refuses (apart '\x22' (by simp))
    · exact startsIn_join.refuses (apart 'j' (by simp))
    · exact startsIn_element.refuses (apart '<' (by simp))
    · exact noParentheses.bind.rule

theorem takes_flwr {bindings : List Binding} {lets : Option (List Binding)}
    {condition : Option Condition} {result : Query} {afterFor afterLets afterWhere : List String}
    (takesFor : Takes inner.forClause tokens bindings afterFor)
    (takesLets : Takes (optional inner.letClause) afterFor lets afterLets)
    (takesWhere : Takes (optional inner.whereClause) afterLets condition afterWhere)
    (takesReturn : Takes inner.returnClause afterWhere result rest) :
    Takes inner.flwr tokens (.flwr bindings (lets.getD []) condition result) rest :=
  (takesFor.andThen (takesLets.andThen (takesWhere.andThen (takesReturn.return
    (f := fun result => Query.flwr bindings (lets.getD []) condition result))))).rule

end

end TreeQuery
