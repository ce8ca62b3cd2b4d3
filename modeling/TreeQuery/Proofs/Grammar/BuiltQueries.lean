import TreeQuery.Proofs.Grammar.BuiltPaths

/-!
# Queries built from their trees

Every rule of queries and conditions leaves the children that building expects of it, for each of
its alternatives and with or without what it allows to be left out (`queryTrees_agree`).
-/

set_option autoImplicit false

namespace TreeQuery.Grammar

open TreeQuery.Grammar.Parser

/-- The tree parsers of a level agree with its parsers, and their trees are built into the values
of these. -/
structure QueryTrees.Agree (trees : QueryTrees) (level : QueryLevel) : Prop where
  path : Agrees trees.path level.path (One .path Part.path)
  query : Agrees trees.query level.query (One .query Part.query)
  single : Agrees trees.single level.single (One .querySingle Part.single)
  condition : Agrees trees.condition level.condition (One .condition Part.condition)
  negation : Agrees trees.negation level.negation (One .conditionNot Part.condition)

/-! ## Tags -/

theorem agrees_noteTags (opening closing : String) :
    Agrees (pure ([] : List Tree)) (noteTags opening closing) fun nodes found _ =>
      nodes = [] ∧ found = if opening = closing then none else some ⟨opening, closing⟩ := by
  intro negated offset rest clash attempts
  have genuine : Genuine (if opening = closing then none else some ⟨opening, closing⟩) := by
    split
    · nofun
    · rintro _ ⟨⟩
      assumption
  have noted : noteTags opening closing negated ⟨offset, rest, clash⟩ attempts = .matched ()
      ⟨offset, rest, clash.or (if opening = closing then none else some ⟨opening, closing⟩)⟩
        attempts := by
    cases clash <;> rfl
  rw [noted]
  exact .matched offset rest attempts genuine ⟨rfl, rfl⟩

/-! ## Parts that are gone over -/

/-- The part of a clause changes the clauses before it in one place. -/
theorem foldlM_addClause {α : Type} {name : Rule} {build : Part → Built α} {nodes : List Tree}
    {found : Option TagClash} {value : α} {clauses : Part.Clauses}
    (one : One name build nodes found value) (update : α → Part.Clauses) (added : ∀ part : Part, part.rule = name →
      Part.addClause clauses part = do return update (← build part)) :
    (Tree.parts nodes).foldlM Part.addClause clauses = verdict found (update value) := by
  obtain ⟨part, parts, isNamed, built⟩ := one
  rw [parts, List.foldlM_cons, added part isNamed, built, verdict_map]
  exact verdict_then rfl

/-- The bindings of a quantified condition are collected in order. -/
theorem addSome_bindings {parts : List Part} {found : Option TagClash} {bindings : List Binding}
    (yields : Yields .inBinding Part.binding parts found bindings) : ∀ before : List Binding,
      parts.foldlM Part.addSome (before, none) = verdict found (before ++ bindings, none) := by
  induction yields with
  | nil => exact fun before => by rw [List.append_nil]; rfl
  | @cons part _ _ _ binding _ isNamed built _ ih =>
      intro before
      rw [List.foldlM_cons, Part.addSome, if_pos isNamed, built, verdict_map]
      refine verdict_bind ((ih _).trans ?_)
      rw [List.append_assoc, List.singleton_append]

namespace QueryTrees.Agree

/-! ## Lists of bindings and of tags -/

theorem bindingList {name : Rule} {binding : TreeParser} {parser : Parser Binding}
    (agrees : Agrees binding parser (One name Part.binding)) :
    Agrees (listed (sign ",") binding) (QueryLevel.bindings parser) fun nodes found bindings =>
      Yields name Part.binding (Tree.parts nodes) found bindings :=
  agrees.commas.mapSecond fun _ _ _ yields => yields

/-- Bindings behind a keyword. -/
theorem bindings {name word : Rule} {spelling : String} {binding : TreeParser}
    {parser : Parser Binding} (agrees : Agrees binding parser (One name Part.binding))
    (kept : name.isPassedOver = false) (isWord : word.isPassedOver = true) :
    Agrees (spaced [keywordNode word spelling, listed (sign ",") binding]) (do
        keyword word spelling
        blanks
        QueryLevel.bindings parser) fun nodes found bindings =>
      Part.bindingsOf (Tree.parts nodes) = verdict found bindings := by
  refine (agrees_passedOver isWord).spaced ?_
  rintro mark _ _ ⟨passed, rfl⟩
  refine (bindingList agrees).imp ?_
  intro nodes found bindings yields
  rw [Part.bindingsOf, ← Tree.significant, additive_significant.append, passed, Tree.significant,
    yields.kept kept]
  exact yields.mapM

theorem tagList : Agrees QueryTrees.tagList QueryLevel.tagList (One .tagList Part.tags) := by
  have name : Agrees identifierNode identifier (One .identifier Part.identifier) := by
    refine agrees_identifier.imp ?_
    rintro _ _ name ⟨rfl, _, rfl, rfl⟩
    exact ⟨_, rfl, rfl, rfl⟩
  refine .builds Part.tagsOf (fun _ _ => rfl) ?_
  refine name.commas.perhaps.bracketed.mapSecond ?_
  rintro nodes found _ (⟨rfl, rfl, rfl⟩ | ⟨tags, rfl, yields⟩)
  · rfl
  · exact yields.mapM

variable {trees : QueryTrees} {level : QueryLevel} (agree : Agree trees level)

include agree

/-! ## Clauses -/

/-- A variable, what separates it from its source, and the source. -/
theorem binding {separator : TreeParser} {mark : Parser Unit}
    (separated : Agrees separator mark PassedOver) :
    Agrees (spaced [referenceNode, separator, trees.single]) (do
        let name ← reference
        blanks
        mark
        blanks
        return Binding.mk name (← level.single)) fun nodes found value =>
      Part.bindingOf (Tree.parts nodes) = verdict found value := by
  refine agrees_reference.spaced ?_
  rintro _ _ name ⟨rfl, _, rfl, text, rfl⟩
  refine separated.spaced ?_
  rintro mark _ _ ⟨passed, rfl⟩
  refine agree.single.mapSecond ?_
  intro nodes found query single
  obtain ⟨part, parts, _, built⟩ := single.significant rfl
  rw [Part.bindingOf, ← Tree.significant, additive_significant.append, additive_significant.append,
    significant_kept rfl, passed, parts]
  show (do return Binding.mk name (← part.single)) = _
  rw [built, verdict_map]
  rfl

theorem inBinding : Agrees trees.inBinding level.inBinding (One .inBinding Part.binding) :=
  .builds Part.bindingOf (fun _ _ => rfl) (agree.binding (agrees_passedOver rfl))

theorem letBinding : Agrees trees.letBinding level.letBinding (One .letBinding Part.binding) := by
  refine .builds Part.bindingOf (fun _ _ => rfl) (agree.binding ((agrees_sign ":=").imp ?_))
  rintro _ _ _ ⟨rfl, rfl⟩
  exact ⟨rfl, rfl⟩

theorem forClause : Agrees trees.forClause level.forClause (One .forClause Part.bindings) :=
  .builds Part.bindingsOf (fun _ _ => rfl) (bindings agree.inBinding rfl rfl)

theorem letClause : Agrees trees.letClause level.letClause (One .letClause Part.bindings) :=
  .builds Part.bindingsOf (fun _ _ => rfl) (bindings agree.letBinding rfl rfl)

theorem whereClause :
    Agrees trees.whereClause level.whereClause (One .whereClause Part.demand) := by
  refine agrees_behindKeyword agree.condition rfl rfl ?_
  intro text parts part seen
  show Part.demandOf parts = _
  rw [Part.demandOf, seen]
  rfl

theorem returnClause :
    Agrees trees.returnClause level.returnClause (One .returnClause Part.result) := by
  refine agrees_behindKeyword agree.query rfl rfl ?_
  intro text parts part seen
  show Part.resultOf parts = _
  rw [Part.resultOf, seen]
  rfl

theorem letIn : Agrees trees.letIn level.letIn (One .letIn Part.expression) := by
  refine .builds (Part.expressionOf .letIn) (fun _ _ => rfl) (agree.letClause.spaced ?_)
  rintro nodes found bindings ⟨part, parts, _, built⟩
  refine agree.query.mapSecond ?_
  rintro others later query ⟨other, otherParts, _, otherBuilt⟩
  rw [Tree.parts_append, parts, otherParts]
  show (part.bindings >>= fun bindings => do return Query.letIn bindings (← other.query)) = _
  rw [built, otherBuilt]
  exact verdict_bind (verdict_map _)

/-! ## Primary queries -/

theorem join : Agrees trees.join level.join (One .join Part.operand) := by
  refine .builds (Part.operandOf .join "") (fun _ _ => rfl) ?_
  refine Agrees.spaced (agrees_passedOver rfl) ?_
  rintro mark _ _ ⟨passed, rfl⟩
  refine .behindSign <| agree.single.spaced fun first foundFirst left one => ?_
  obtain ⟨leftPart, leftParts, _, leftBuilt⟩ := one.significant rfl
  refine .behindSign <| agree.single.spaced fun second foundSecond right one => ?_
  obtain ⟨rightPart, rightParts, _, rightBuilt⟩ := one.significant rfl
  refine .behindSign <| tagList.spaced fun third foundThird leftTags one => ?_
  obtain ⟨leftList, leftLists, _, leftTagsBuilt⟩ := one.significant rfl
  refine .behindSign <| tagList.spaced fun fourth foundFourth rightTags one => ?_
  obtain ⟨rightList, rightLists, _, rightTagsBuilt⟩ := one.significant rfl
  refine (agrees_sign ")").mapSecond ?_
  rintro _ _ _ ⟨rfl, rfl⟩
  rw [Part.operandOf, ← Tree.significant]
  simp only [additive_significant.append, additive_significant.nil, passed, leftParts, rightParts,
    leftLists, rightLists]
  show (leftPart.single >>= fun left => rightPart.single >>= fun right =>
    leftList.tags >>= fun leftTags => do
      return Query.join left right leftTags (← rightList.tags)) = _
  rw [leftBuilt, rightBuilt, leftTagsBuilt, rightTagsBuilt]
  refine verdict_bind (verdict_bind (verdict_bind ?_))
  rw [verdict_map, Option.or_none]

/-- A constructor whose tags clash is where building stops, unless it has stopped before. -/
theorem element : Agrees trees.element level.element (One .element Part.operand) := by
  refine .builds (Part.operandOf .element "") (fun _ _ => rfl) ?_
  refine .behindSign (agrees_identifier.spaced ?_)
  rintro _ _ opening ⟨rfl, _, rfl, rfl⟩
  refine .behindSign (agree.query.bracketed.spaced ?_)
  rintro nodes found body ⟨part, parts, _, built⟩
  refine .behindSign (.behindSign (agrees_identifier.spaced ?_))
  rintro _ _ closing ⟨rfl, _, rfl, rfl⟩
  -- the parser notes the tags where the tree parser only reads the last sign
  refine Agrees.bind (Steady.literal ">") ?_
  rintro _ _ _ ⟨rfl, rfl⟩
  refine (agrees_noteTags opening closing).mapSecond ?_
  rintro _ noted _ ⟨rfl, isNoted⟩
  simp only [Tree.parts_append, parts]
  show (part.query >>= fun body => if opening = closing then .ok (Query.element opening body)
    else .error (.tagClash ⟨opening, closing⟩)) = _
  rw [built]
  refine verdict_bind ?_
  by_cases same : opening = closing
  · rw [if_pos same] at isNoted ⊢
    rw [isNoted]
    rfl
  · rw [if_neg same] at isNoted ⊢
    rw [isNoted]
    rfl

theorem queryPrimary :
    Agrees trees.queryPrimary level.queryPrimary (One .queryPrimary Part.primary) := by
  refine .builds Part.primaryOf (fun _ _ => rfl) ?_
  refine .firstOf (.cons ?_ <| .cons ?_ <| .cons ?_ <| .cons ?_ <| .cons ?_ <| .cons ?_ .nil)
  · refine (agrees_documentPath agree.path).mapSecond ?_
    rintro _ found path ⟨text, children, rfl, built⟩
    show (do return Query.document (← Part.documentPathOf (Tree.parts children))) = _
    rw [built, verdict_map]
  · refine agrees_reference.mapSecond ?_
    rintro _ _ name ⟨rfl, _, rfl, text, rfl⟩
    rfl
  · refine agrees_string.mapSecond ?_
    rintro _ _ value ⟨rfl, _, rfl, text, rfl⟩
    rfl
  · exact agree.join.chosen fun _ => rfl
  · exact agree.element.chosen fun _ => rfl
  · have parentheses : Agrees (node .queryParentheses (bracketed "(" trees.query ")"))
        (rule .queryParentheses do return Query.parenthesized (← enclosed "(" level.query ")"))
        (One .queryParentheses Part.operand) :=
      agree.query.bracketed.wrapped Query.parenthesized fun _ _ => rfl
    exact parentheses.chosen fun _ => rfl

theorem queryPath : Agrees trees.queryPath level.queryPath (One .queryPath Part.expression) := by
  refine .builds (Part.expressionOf .queryPath) (fun _ _ => rfl) ?_
  refine agree.queryPrimary.spaced ?_
  rintro nodes found base ⟨part, parts, _, built⟩
  refine (agrees_furtherStep agree.path).perhaps.mapSecond ?_
  rintro others later _ (⟨rfl, rfl, rfl⟩ | ⟨⟨axis, path⟩, rfl, sign, other, otherParts, isAxis,
    otherBuilt⟩)
  · rw [List.append_nil, Option.or_none, parts]
    show (part.primary >>= pure) = _
    rw [bind_pure, built]
  · rw [Tree.parts_append, parts, otherParts]
    show (part.primary >>= fun base => Part.axisOf sign >>= fun axis => do
      return Query.step base axis (← other.path)) = _
    rw [built, isAxis, otherBuilt]
    exact verdict_bind (verdict_map _)

/-- The clauses that can be left out keep what there is without them. -/
theorem flwr : Agrees trees.flwr level.flwr (One .flwr Part.expression) := by
  refine .builds Part.flwrOf (fun _ _ => rfl) ?_
  refine agree.forClause.spaced fun first foundFirst bindings forClause => ?_
  refine agree.letClause.perhaps.spaced fun second foundSecond lets letClause => ?_
  refine agree.whereClause.perhaps.spaced fun third foundThird condition whereClause => ?_
  refine agree.returnClause.mapSecond fun fourth foundFourth result returnClause => ?_
  have forAdded (clauses : Part.Clauses) : (Tree.parts first).foldlM Part.addClause clauses =
      verdict foundFirst { clauses with bindings := bindings } := by
    refine foldlM_addClause forClause (fun bindings => { clauses with bindings := bindings }) ?_
    intro part isNamed
    rw [Part.addClause, isNamed]
  have letAdded (clauses : Part.Clauses) : (Tree.parts second).foldlM Part.addClause clauses =
      verdict foundSecond { clauses with lets := lets.getD clauses.lets } := by
    rcases letClause with ⟨rfl, rfl, rfl⟩ | ⟨given, rfl, one⟩
    · rfl
    · refine foldlM_addClause one (fun lets => { clauses with lets := lets }) ?_
      intro part isNamed
      rw [Part.addClause, isNamed]
  have whereAdded (clauses : Part.Clauses) : (Tree.parts third).foldlM Part.addClause clauses =
      verdict foundThird { clauses with condition := condition.or clauses.condition } := by
    rcases whereClause with ⟨rfl, rfl, rfl⟩ | ⟨given, rfl, one⟩
    · rfl
    · refine foldlM_addClause one (fun demand => { clauses with condition := some demand }) ?_
      intro part isNamed
      rw [Part.addClause, isNamed]
  have returnAdded (clauses : Part.Clauses) : (Tree.parts fourth).foldlM Part.addClause clauses =
      verdict foundFourth { clauses with result := some result } := by
    refine foldlM_addClause returnClause (fun result => { clauses with result := some result }) ?_
    intro part isNamed
    rw [Part.addClause, isNamed]
  -- the clauses are added one after the other, whether or not there are those in the middle
  have added : (Tree.parts (first ++ (second ++ (third ++ fourth)))).foldlM Part.addClause
      ⟨[], [], none, none⟩ = verdict (foundFirst.or (foundSecond.or (foundThird.or foundFourth)))
        ⟨bindings, lets.getD [], condition.or none, some result⟩ := by
    simp only [Tree.parts_append, List.foldlM_append, forAdded, letAdded, whereAdded, returnAdded]
    exact verdict_bind (verdict_bind (verdict_bind rfl))
  rw [Part.flwrOf, added, Option.or_none]
  exact verdict_then rfl

theorem outerSingle :
    Agrees trees.outerSingle level.outerSingle (One .querySingle Part.single) := by
  refine .builds Part.singleOf (fun _ _ => rfl) ?_
  exact .firstOf (.cons (agree.flwr.chosen fun _ => rfl) <|
    .cons (agree.letIn.chosen fun _ => rfl) <| .cons (agree.queryPath.chosen fun _ => rfl) .nil)

theorem outerQuery : Agrees trees.outerQuery level.outerQuery (One .query Part.query) := by
  refine .builds Part.queryOf (fun _ _ => rfl) ?_
  exact agree.outerSingle.commas.mapSecond fun _ _ _ yields => yields.folded

/-! ## Conditions -/

theorem conditionEmpty :
    Agrees (node .conditionEmpty
        (spaced [keywordNode .emptyKeyword "empty", bracketed "(" trees.query ")"]))
      (rule .conditionEmpty do
        keyword .emptyKeyword "empty"
        blanks
        return Condition.empty (← enclosed "(" level.query ")"))
      (One .conditionEmpty Part.condition) := by
  refine .builds (Part.conditionOf .conditionEmpty) (fun _ _ => rfl) ?_
  refine Agrees.spaced (agrees_passedOver rfl) ?_
  rintro mark _ _ ⟨passed, rfl⟩
  refine agree.query.bracketed.mapSecond ?_
  intro nodes found query one
  obtain ⟨part, parts, _, built⟩ := one.significant rfl
  rw [Part.conditionOf, ← Tree.significant, additive_significant.append, passed, parts]
  show (do return Condition.empty (← part.query)) = _
  rw [built, verdict_map]
  rfl

theorem conditionSome :
    Agrees (node .conditionSome (spaced [keywordNode .someKeyword "some",
        listed (sign ",") trees.inBinding, keywordNode .satisfiesKeyword "satisfies",
        trees.condition]))
      (rule .conditionSome do
        keyword .someKeyword "some"
        blanks
        let bindings ← QueryLevel.bindings level.inBinding
        blanks
        keyword .satisfiesKeyword "satisfies"
        blanks
        return Condition.someSatisfies bindings (← level.condition))
      (One .conditionSome Part.condition) := by
  refine .builds (Part.conditionOf .conditionSome) (fun _ _ => rfl) ?_
  refine Agrees.spaced (agrees_passedOver rfl) ?_
  rintro mark _ _ ⟨passed, rfl⟩
  refine (bindingList agree.inBinding).spaced ?_
  intro nodes found bindings yields
  refine Agrees.spaced (agrees_passedOver rfl) ?_
  rintro between _ _ ⟨passedBetween, rfl⟩
  refine agree.condition.mapSecond ?_
  intro others later condition one
  obtain ⟨part, parts, isNamed, built⟩ := one.significant rfl
  have seen : Tree.significant (mark ++ (nodes ++ (between ++ others))) =
      Tree.parts nodes ++ [part] := by
    simp only [additive_significant.append, passed, passedBetween, parts, List.nil_append]
    rw [Tree.significant, yields.kept rfl]
  have collected : (Tree.parts nodes ++ [part]).foldlM Part.addSome ([], none) =
      verdict (found.or later) (bindings, some condition) := by
    rw [List.foldlM_append, addSome_bindings yields]
    refine verdict_bind ?_
    rw [List.foldlM_cons, Part.addSome, if_neg (by simp [isNamed]), built, verdict_map]
    exact verdict_then rfl
  rw [Part.conditionOf, ← Tree.significant, seen, collected]
  exact verdict_then rfl

theorem conditionComparison :
    Agrees (node .conditionComparison
        (spaced [trees.outerSingle, comparisonNode, trees.outerSingle]))
      (rule .conditionComparison do
        let left ← level.outerSingle
        blanks
        let comparison ← comparison
        blanks
        let right ← level.outerSingle
        return match comparison with
          | .identity => Condition.identityEq left right
          | .value => Condition.valueEq left right)
      (One .conditionComparison Part.condition) := by
  refine agrees_comparing Condition.identityEq Condition.valueEq agree.outerSingle ?_
  intro text left operator right
  rfl

theorem conditionPrimary : Agrees trees.conditionPrimary level.conditionPrimary
    (One .conditionPrimary Part.condition) := by
  have parentheses : Agrees (node .conditionParentheses (bracketed "(" trees.condition ")"))
      (rule .conditionParentheses do
        return Condition.parenthesized (← enclosed "(" level.condition ")"))
      (One .conditionParentheses Part.condition) :=
    agree.condition.bracketed.wrapped Condition.parenthesized fun _ _ => rfl
  refine .builds (Part.conditionOf .conditionPrimary) (fun _ _ => rfl) ?_
  exact .firstOf (.cons (agree.conditionEmpty.chosen fun _ => rfl) <|
    .cons (agree.conditionSome.chosen fun _ => rfl) <|
    .cons (agree.conditionComparison.chosen fun _ => rfl) <|
    .cons (parentheses.chosen fun _ => rfl) .nil)

theorem outerNegation :
    Agrees trees.outerNegation level.outerNegation (One .conditionNot Part.condition) := by
  refine agrees_negation .not agree.negation agree.conditionPrimary rfl rfl (by decide) ?_
  intro text parts part seen
  show Part.conditionOf .conditionNot parts = _
  rw [Part.conditionOf, seen]
  rfl

theorem conditionAnd :
    Agrees trees.conditionAnd level.conditionAnd (One .conditionAnd Part.condition) := by
  refine .builds (Part.conditionOf .conditionAnd) (fun _ _ => rfl) ?_
  exact (agree.outerNegation.keywords rfl rfl).mapSecond fun _ _ _ yields => yields.folded

theorem conditionOr :
    Agrees trees.conditionOr level.conditionOr (One .conditionOr Part.condition) := by
  refine .builds (Part.conditionOf .conditionOr) (fun _ _ => rfl) ?_
  exact (agree.conditionAnd.keywords rfl rfl).mapSecond fun _ _ _ yields => yields.folded

theorem outerCondition :
    Agrees trees.outerCondition level.outerCondition (One .condition Part.condition) := by
  refine .builds (Part.conditionOf .condition) (fun _ _ => rfl) ?_
  exact agree.conditionOr.chosen fun _ => rfl

/-- The level outside agrees with the level outside. -/
theorem outside : Agree trees.outside level.outside :=
  ⟨agree.path, agree.outerQuery, agree.outerSingle, agree.outerCondition, agree.outerNegation⟩

end QueryTrees.Agree

/-- At every level, queries and conditions are built from their trees. -/
theorem queryTrees_agree {path : TreeParser} {parser : Parser Path}
    (agrees : Agrees path parser (One .path Part.path)) :
    ∀ levels : Nat, (queryTrees path levels).Agree (queryLevel parser levels)
  | 0 => ⟨agrees, .fail, .fail, .fail, .fail⟩
  | levels + 1 => (queryTrees_agree agrees levels).outside

end TreeQuery.Grammar
