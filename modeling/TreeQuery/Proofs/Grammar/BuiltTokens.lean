import TreeQuery.Proofs.Grammar.Agreement
import TreeQuery.Grammar.Building

/-!
# Tokens and lists built from their trees

Where a tree parser and a parser agree, the tree is built into the value that the parser gives,
unless a clash was found; then building stops at that clash.  A node is built from the parts below
it, so for each kind of sequence there is a lemma on the parts that it leaves: those of a list with
separators between its items, and those of the tokens.
-/

set_option autoImplicit false

namespace TreeQuery.Grammar

variable {α β : Type}

/-! ## What building comes to -/

/-- What is built where a value is known and a clash may have been found. -/
def verdict (found : Option TagClash) (value : α) : Built α :=
  match found with
  | none => .ok value
  | some clash => .error (.tagClash clash)

/-- Building stops at the first clash. -/
theorem verdict_bind {found later : Option TagClash} {value : α} {further : α → Built β}
    {last : β} (continues : further value = verdict later last) :
    (verdict found value >>= further) = verdict (found.or later) last := by
  cases found with
  | none => exact continues
  | some clash => rfl

/-- What needs no more building is as it was found. -/
theorem verdict_then {found : Option TagClash} {value : α} {further : α → Built β} {last : β}
    (ends : further value = .ok last) :
    (verdict found value >>= further) = verdict found last := by
  cases found with
  | none => exact ends
  | some clash => rfl

theorem verdict_map {found : Option TagClash} {value : α} (f : α → β) :
    (do return f (← verdict found value)) = verdict found (f value) :=
  verdict_then rfl

/-- One part of a rule, from which a value is built. -/
def Sole (name : Rule) (build : Part → Built α) (parts : List Part) (found : Option TagClash)
    (value : α) : Prop :=
  ∃ part, parts = [part] ∧ part.rule = name ∧ build part = verdict found value

/-- Parts of a rule, from each of which a value is built; the first clash counts. -/
inductive Yields (name : Rule) (build : Part → Built α) :
    List Part → Option TagClash → List α → Prop where
  | nil : Yields name build [] none []
  | cons {part : Part} {parts : List Part} {found later : Option TagClash} {value : α}
      {values : List α} : part.rule = name → build part = verdict found value →
        Yields name build parts later values →
          Yields name build (part :: parts) (found.or later) (value :: values)

namespace Yields

variable {name : Rule} {build : Part → Built α} {parts : List Part} {found : Option TagClash}
variable {values : List α}

theorem joined {join : β → α → β} (yields : Yields name build parts found values) :
    ∀ first : β,
      Part.joined build join first parts = verdict found (values.foldl join first) := by
  induction yields with
  | nil => exact fun _ => rfl
  | cons _ built _ ih =>
      intro first
      rw [Part.joined, List.foldlM_cons, built, verdict_map]
      exact verdict_bind (ih _)

theorem folded {what : String} {join : α → α → α} {value : α}
    (yields : Yields name build parts found (value :: values)) :
    Part.folded what build join parts = verdict found (values.foldl join value) := by
  cases yields with
  | cons _ built others =>
      rw [Part.folded]
      show (build _ >>= fun first => Part.joined build join first _) = _
      rw [built]
      exact verdict_bind (others.joined value)

theorem mapM (yields : Yields name build parts found values) :
    parts.mapM build = verdict found values := by
  induction yields with
  | nil => rfl
  | cons _ built _ ih =>
      rw [List.mapM_cons, built, ih]
      refine verdict_bind ?_
      exact verdict_map _

theorem kept (yields : Yields name build parts found values)
    (kept : name.isPassedOver = false) : Part.significant parts = parts := by
  induction yields with
  | nil => rfl
  | cons isNamed _ _ ih =>
      rw [Part.significant, List.filter_cons_of_pos (by simp [isNamed, kept]), ← Part.significant,
        ih]

end Yields

/-! ## Parts of nodes -/

theorem Tree.parts_append (first others : List Tree) :
    Tree.parts (first ++ others) = Tree.parts first ++ Tree.parts others := by
  induction first with
  | nil => rfl
  | cons tree rest ih =>
      rw [List.cons_append, Tree.parts, Tree.parts, ih, List.cons_append]

/-- A way of looking at nodes one after the other. -/
structure Additive (view : List Tree → List Part) : Prop where
  nil : view [] = []
  append : ∀ first others, view (first ++ others) = view first ++ view others

/-- The parts of nodes that are no keywords and not the end of the input. -/
def Tree.significant (nodes : List Tree) : List Part := Part.significant (Tree.parts nodes)

theorem additive_parts : Additive Tree.parts := ⟨rfl, Tree.parts_append⟩

theorem additive_significant : Additive Tree.significant where
  nil := rfl
  append first others := by
    rw [Tree.significant, Tree.parts_append]
    exact List.filter_append ..

/-- Keywords are passed over. -/
theorem significant_keyword {name : Rule} (passed : name.isPassedOver = true) (text : String) :
    Tree.significant [.node name text []] = [] := by
  simp [Tree.significant, Tree.parts, Tree.part, Part.significant, Part.of, passed]

theorem significant_kept {tree : Tree} (kept : tree.part.rule.isPassedOver = false) :
    Tree.significant [tree] = [tree.part] := by
  simp [Tree.significant, Tree.parts, Part.significant, kept]

namespace Parser

/-- The node of a rule, from which a value is built. -/
def One (name : Rule) (build : Part → Built α) (nodes : List Tree) (found : Option TagClash)
    (value : α) : Prop :=
  Sole name build (Tree.parts nodes) found value

theorem One.significant {name : Rule} {build : Part → Built α} {nodes : List Tree}
    {found : Option TagClash} {value : α} (one : One name build nodes found value)
    (kept : name.isPassedOver = false) :
    Sole name build (Tree.significant nodes) found value := by
  obtain ⟨part, parts, isNamed, built⟩ := one
  refine ⟨part, ?_, isNamed, built⟩
  rw [Tree.significant, parts, Part.significant]
  simp [isNamed, kept]

/-- A rule leaves a node, and the node is built from what is read inside of it. -/
theorem Agrees.becomes {name : Rule} {role : Part → Built α} {trees : TreeParser}
    {parser : Parser α} (agrees : Agrees trees parser fun children found value =>
      ∀ text, role (Part.of name text (Tree.parts children)) = verdict found value) :
    Agrees (Grammar.node name trees) (Parser.rule name parser) (One name role) :=
  agrees.node.imp (by
    rintro _ found value ⟨text, children, rfl, built⟩
    exact ⟨_, rfl, rfl, built text⟩)

theorem Agrees.builds {name : Rule} {role : Part → Built α} {trees : TreeParser}
    {parser : Parser α} (build : List Part → Built α)
    (same : ∀ text parts, role (Part.of name text parts) = build parts)
    (agrees : Agrees trees parser fun children found value =>
      build (Tree.parts children) = verdict found value) :
    Agrees (Grammar.node name trees) (Parser.rule name parser) (One name role) :=
  .becomes (agrees.imp fun _ _ _ built text => (same text _).trans built)

/-- Where a rule leaves only what another one is built from, the other is built in its place. -/
theorem Agrees.chosen {name : Rule} {role : Part → Built α} {build : List Part → Built α}
    {trees : TreeParser} {parser : Parser α} (agrees : Agrees trees parser (One name role))
    (same : ∀ part, build [part] = role part) :
    Agrees trees parser fun children found value =>
      build (Tree.parts children) = verdict found value :=
  agrees.imp (by
    rintro nodes found value ⟨part, parts, _, built⟩
    rw [parts, same, built])

/-- A rule that makes something of what one other rule is built into. -/
theorem Agrees.wrapped {name inner : Rule} {build : Part → Built α} {role : Part → Built β}
    {trees : TreeParser} {parser : Parser α} (agrees : Agrees trees parser (One inner build))
    (f : α → β) (same : ∀ text part,
      role (Part.of name text [part]) = do return f (← build part)) :
    Agrees (Grammar.node name trees) (Parser.rule name do return f (← parser))
      (One name role) := by
  refine .becomes (agrees.mapSecond ?_)
  rintro nodes found value ⟨part, parts, _, built⟩ text
  rw [parts, same, built, verdict_map]

section Lists

variable {view : List Tree → List Part} {belongs : List Tree → Option TagClash → α → Prop}
variable {name : Rule} {build : Part → Built α} {nodes : List Tree} {found : Option TagClash}

theorem Series.yields {values : List α} (additive : Additive view)
    (sole : ∀ nodes found value, belongs nodes found value →
      Sole name build (view nodes) found value) (series : Series belongs nodes found values) :
    Yields name build (view nodes) found values := by
  induction series with
  | nil =>
      rw [additive.nil]
      exact .nil
  | cons holds _ ih =>
      obtain ⟨part, parts, isNamed, built⟩ := sole _ _ _ holds
      rw [additive.append, parts]
      exact .cons isNamed built ih

/-- A list is seen without its separators. -/
theorem Listing.yields {separates : List Tree → Prop} {read : α × List α}
    (additive : Additive view) (hidden : ∀ mark, separates mark → view mark = [])
    (sole : ∀ nodes found value, belongs nodes found value →
      Sole name build (view nodes) found value)
    (listing : Listing separates belongs nodes found read) :
    Yields name build (view nodes) found (read.1 :: read.2) := by
  obtain ⟨first, others, foundFirst, foundLater, rfl, rfl, holds, series⟩ := listing
  have further : Yields name build (view others) foundLater read.2 := by
    refine series.yields additive ?_
    rintro _ found value ⟨mark, item, rfl, separated, holds⟩
    rw [additive.append, hidden mark separated]
    exact sole item found value holds
  obtain ⟨part, parts, isNamed, built⟩ := sole _ _ _ holds
  rw [additive.append, parts]
  exact .cons isNamed built further

end Lists

/-! ## Tokens -/

/-- Whether the letters of a value are what a parser reads for it. -/
def Spells (parser : Parser α) (letters : α → List Char) : Prop :=
  ∀ (negated : Bool) (cursor next : Cursor) (attempts tried : Attempts) (value : α),
    parser negated cursor attempts = .matched value next tried →
      cursor.rest.take (next.offset - cursor.offset) = letters value

/-- A rule whose value spells what is read leaves it as the text of its node. -/
theorem Agrees.spelled {name : Rule} {trees : TreeParser} {parser : Parser α}
    {letters : α → List Char} {belongs : List Tree → Option TagClash → α → Prop}
    (agrees : Agrees trees parser belongs) (spells : Spells parser letters) :
    Agrees (Grammar.node name trees) (Parser.rule name parser) fun nodes found value =>
      ∃ children, nodes = [.node name (String.ofList (letters value)) children] ∧
        belongs children found value := by
  intro negated offset rest clash attempts
  simp only [Grammar.node, Parser.rule]
  rcases agrees.run negated offset rest clash attempts with
    ⟨tried, ran, ranToo⟩ | ⟨nodes, found, value, next, left, tried, genuine, holds, ran, ranToo⟩
  · rw [ran, ranToo]
    exact .failed _
  · have text := spells _ _ _ _ _ _ ranToo
    rw [ran, ranToo]
    exact .matched next left _ genuine ⟨nodes, by rw [← text], holds⟩

/-- The run of characters of a class is what is before its end. -/
theorem take_length_takeWhile (member : Char → Bool) (letters : List Char) :
    letters.take (letters.takeWhile member).length = letters.takeWhile member :=
  (List.prefix_iff_eq_take.mp (List.takeWhile_prefix member)).symm

theorem spells_charactersWhile (member : Char → Bool) : Spells (charactersWhile member) id := by
  rintro negated ⟨offset, rest, clash⟩ next attempts tried value ran
  cases ran
  show rest.take (offset + (rest.takeWhile member).length - offset) = rest.takeWhile member
  rw [Nat.add_sub_cancel_left, take_length_takeWhile]

/-- A name is its first letter and the run behind it. -/
theorem spells_name : Spells (do
    let first ← character startsName
    let rest ← charactersWhile continuesName
    return String.ofList (first :: rest)) String.toList := by
  rintro negated ⟨offset, rest, clash⟩ next attempts tried value ran
  change andThen (character startsName) _ negated _ attempts = _ at ran
  cases rest with
  | nil => cases ran
  | cons c rest =>
      by_cases starts : startsName c = true
      · simp only [andThen, character, starts, if_true] at ran
        cases ran
        show (c :: rest).take (offset + 1 + (rest.takeWhile continuesName).length - offset) = _
        have length : offset + 1 + (rest.takeWhile continuesName).length - offset =
            (rest.takeWhile continuesName).length + 1 := by omega
        rw [length, List.take_succ_cons, take_length_takeWhile, String.toList_ofList]
      · simp only [andThen, character, starts] at ran
        cases ran

/-- The node of a token, which notes no clash. -/
def Token (leaves : α → Tree → Prop) (nodes : List Tree) (found : Option TagClash) (value : α) :
    Prop :=
  found = none ∧ ∃ tree, nodes = [tree] ∧ leaves value tree

theorem agrees_identifier :
    Agrees identifierNode identifier (Token fun name tree => tree = .node .identifier name []) := by
  have reads : Agrees (unseen do let _ ← character startsName; charactersWhile continuesName)
      (do
        let first ← character startsName
        let rest ← charactersWhile continuesName
        return String.ofList (first :: rest)) Leafless := by
    refine Agrees.mapFirst ?_ fun _ _ _ none => ⟨rfl, none⟩
    refine Agrees.bind (Steady.character startsName) ?_
    rintro first _ _ ⟨rfl, rfl⟩
    exact (Steady.charactersWhile continuesName).mapSecond fun _ _ _ same => same.2
  refine (Agrees.spelled reads spells_name).imp ?_
  rintro _ _ value ⟨_, rfl, rfl, rfl⟩
  rw [String.ofList_toList]
  exact ⟨rfl, _, rfl, rfl⟩

theorem agrees_string :
    Agrees stringNode stringLiteral (Token fun value tree =>
      ∃ text, tree = .node .stringLiteral text [.node .stringInner value []]) := by
  have inner : Agrees (node .stringInner (unseen (charactersWhile insideString)))
      (rule .stringInner (charactersWhile insideString)) fun nodes found value =>
        found = none ∧ nodes = [.node .stringInner (String.ofList value) []] := by
    refine (Agrees.spelled (.unseen (.charactersWhile insideString))
      (spells_charactersWhile insideString)).imp ?_
    rintro _ _ value ⟨_, rfl, rfl, rfl⟩
    exact ⟨rfl, rfl⟩
  have reads : Agrees (adjoined [
        sign "\"",
        node .stringInner (unseen (charactersWhile insideString)),
        sign "\""]) (do
        literal "\""
        let value ← rule .stringInner (charactersWhile insideString)
        literal "\""
        return String.ofList value) fun nodes found value =>
          found = none ∧ nodes = [.node .stringInner value []] := by
    refine (agrees_sign "\"").adjoined ?_
    rintro _ _ _ ⟨rfl, rfl⟩
    refine inner.adjoined ?_
    rintro _ _ value ⟨rfl, rfl⟩
    refine (agrees_sign "\"").mapSecond ?_
    rintro _ _ _ ⟨rfl, rfl⟩
    exact ⟨rfl, rfl⟩
  refine reads.node.imp ?_
  rintro _ _ value ⟨text, _, rfl, rfl, rfl⟩
  exact ⟨rfl, _, rfl, text, rfl⟩

theorem agrees_reference :
    Agrees referenceNode reference (Token fun name tree =>
      ∃ text, tree = .node .reference text [.node .identifier name []]) := by
  have reads : Agrees (adjoined [sign "$", identifierNode]) (do literal "$"; identifier)
      (Token fun name tree => tree = .node .identifier name []) := by
    refine (agrees_sign "$").adjoined ?_
    rintro _ _ _ ⟨rfl, rfl⟩
    exact agrees_identifier
  refine reads.node.imp ?_
  rintro _ _ name ⟨text, _, rfl, rfl, _, rfl, rfl⟩
  exact ⟨rfl, _, rfl, text, rfl⟩

theorem agrees_word (name : Rule) (spellings : List String) :
    Agrees (node name (unseen (word spellings))) (rule name (word spellings))
      (Token fun _ tree => ∃ text, tree = .node name text []) := by
  refine (Agrees.unseen (.word spellings)).node.imp ?_
  rintro _ _ _ ⟨text, _, rfl, rfl, rfl⟩
  exact ⟨rfl, _, rfl, text, rfl⟩

theorem agrees_keyword (name : Rule) (spelling : String) :
    Agrees (keywordNode name spelling) (keyword name spelling)
      (Token fun _ tree => ∃ text, tree = .node name text []) :=
  agrees_word name [spelling]

/-- A sign that a rule consists of. -/
theorem agrees_signNode (name : Rule) (text : String) (value : α) :
    Agrees (node name (sign text)) (rule name do literal text; return value)
      (Token fun given tree => given = value ∧ ∃ text, tree = .node name text []) := by
  have reads : Agrees (sign text) (do literal text; return value) fun nodes found given =>
      nodes = [] ∧ found = none ∧ given = value :=
    (agrees_sign text).mapSecond fun _ _ _ leafless => ⟨leafless.1, leafless.2, rfl⟩
  refine reads.node.imp ?_
  rintro _ _ _ ⟨text, _, rfl, rfl, rfl, rfl⟩
  exact ⟨rfl, _, rfl, rfl, text, rfl⟩

theorem agrees_axis :
    Agrees axisNode axis (Token fun axis tree =>
      Part.axisOf tree.part = .ok axis ∧ tree.part.rule.isPassedOver = false) := by
  refine .firstOf (.cons ?_ (.cons ?_ .nil))
  all_goals
    refine (agrees_signNode _ _ _).imp ?_
    rintro _ _ _ ⟨rfl, _, rfl, rfl, text, rfl⟩
    exact ⟨rfl, _, rfl, rfl, rfl⟩

theorem steady_axis : Steady axis :=
  Agrees.firstOf (.cons ((Steady.literal "//").bind fun _ => .pure _).rule <|
    .cons ((Steady.literal "/").bind fun _ => .pure _).rule .nil)

/-- A sign, or a word in its place. -/
theorem agrees_spellings (sign : String) (word : Rule) (spelling : String) :
    Agrees (firstOf [Grammar.sign sign, keywordNode word spelling])
      (firstOf [literal sign, keyword word spelling]) fun _ found _ => found = none :=
  .firstOf (.cons ((agrees_sign sign).imp fun _ _ _ leafless => leafless.2)
    (.cons ((agrees_keyword word spelling).imp fun _ _ _ token => token.1) .nil))

theorem agrees_valueOperator :
    Agrees valueOperatorNode valueOperator (Token fun _ tree =>
      tree.part.rule = .valueOperator) := by
  refine (agrees_spellings "=" .eqKeyword "eq").node.imp ?_
  rintro _ _ _ ⟨text, _, rfl, rfl⟩
  exact ⟨rfl, _, rfl, rfl⟩

theorem agrees_identityOperator :
    Agrees identityOperatorNode (rule .identityOperator do
      firstOf [literal "==", keyword .isKeyword "is"]
      return Comparison.identity) (Token fun comparison tree =>
        tree.part.rule = .identityOperator ∧ comparison = .identity) := by
  have reads : Agrees (firstOf [sign "==", keywordNode .isKeyword "is"]) (do
      firstOf [literal "==", keyword .isKeyword "is"]
      return Comparison.identity) fun _ found comparison => found = none ∧ comparison = .identity :=
    (agrees_spellings "==" .isKeyword "is").mapSecond fun _ _ _ none => ⟨none, rfl⟩
  refine reads.node.imp ?_
  rintro _ _ _ ⟨text, _, rfl, rfl, rfl⟩
  exact ⟨rfl, _, rfl, rfl, rfl⟩

theorem agrees_comparison :
    Agrees comparisonNode comparison (Token fun comparison tree =>
      (tree.part.rule = .identityOperator ↔ comparison = .identity)) := by
  refine .firstOf (.cons (agrees_identityOperator.imp ?_) (.cons
    (agrees_valueOperator.mapSecond ?_) .nil))
  · rintro _ _ _ ⟨rfl, tree, rfl, isNamed, rfl⟩
    exact ⟨rfl, tree, rfl, by simp [isNamed]⟩
  · rintro _ _ _ ⟨rfl, tree, rfl, isNamed⟩
    exact ⟨rfl, tree, rfl, by simp [isNamed]⟩

/-! ## Keywords and lists -/

/-- What building passes over. -/
def PassedOver (nodes : List Tree) (found : Option TagClash) (_ : α) : Prop :=
  Tree.significant nodes = [] ∧ found = none

theorem agrees_passedOver {word : Rule} {spelling : String} (passed : word.isPassedOver = true) :
    Agrees (keywordNode word spelling) (keyword word spelling) PassedOver := by
  refine (agrees_keyword word spelling).imp ?_
  rintro _ _ _ ⟨rfl, _, rfl, text, rfl⟩
  exact ⟨significant_keyword passed text, rfl⟩

section Keywords

variable {name inner : Rule} {build role : Part → Built α} {trees : TreeParser} {parser : Parser α}

/-- A rule of a keyword and what is behind it. -/
theorem agrees_behindKeyword {word : Rule} {spelling : String}
    (agrees : Agrees trees parser (One inner build)) (kept : inner.isPassedOver = false)
    (passed : word.isPassedOver = true)
    (same : ∀ text parts part, Part.significant parts = [part] →
      role (Part.of name text parts) = build part) :
    Agrees (node name (spaced [keywordNode word spelling, trees])) (rule name do
      keyword word spelling
      blanks
      parser) (One name role) := by
  refine .becomes ((agrees_passedOver passed).spaced ?_)
  rintro mark _ _ ⟨hidden, rfl⟩
  refine agrees.imp fun nodes found value one text => ?_
  obtain ⟨part, parts, _, built⟩ := one.significant kept
  have seen : Tree.significant (mark ++ nodes) = [part] := by
    rw [additive_significant.append, hidden, parts, List.nil_append]
  exact (same text _ part seen).trans built

/-- A negation, or what can be negated.  Building tells them apart by the rule of the part. -/
theorem agrees_negation {other : TreeParser} {alternative : Parser α} (invert : α → α)
    (agrees : Agrees trees parser (One name role))
    (primary : Agrees other alternative (One inner role)) (kept : name.isPassedOver = false)
    (keptToo : inner.isPassedOver = false) (distinct : inner ≠ name)
    (same : ∀ text parts part, Part.significant parts = [part] →
      role (Part.of name text parts) =
        if part.rule = name then do return invert (← role part) else role part) :
    Agrees (node name (firstOf [spaced [keywordNode .notKeyword "not", trees], other]))
      (rule name (firstOf [
        do
          keyword .notKeyword "not"
          blanks
          return invert (← parser),
        alternative])) (One name role) := by
  refine .becomes (.firstOf (.cons ?_ <| .cons ?_ .nil))
  · refine Agrees.spaced (agrees_passedOver rfl) ?_
    rintro mark _ _ ⟨passed, rfl⟩
    refine agrees.mapSecond fun nodes found value one text => ?_
    obtain ⟨part, parts, isNamed, built⟩ := one.significant kept
    have seen : Tree.significant (mark ++ nodes) = [part] := by
      rw [additive_significant.append, passed, parts, List.nil_append]
    rw [same text _ part seen, if_pos isNamed, built, verdict_map]
    rfl
  · refine primary.imp fun nodes found value one text => ?_
    obtain ⟨part, parts, isNamed, built⟩ := one.significant keptToo
    rw [same text _ part parts, if_neg (isNamed ▸ distinct), built]

end Keywords

section Comparisons

variable {name operand : Rule} {build : Part → Built α} {role : Part → Built β}
variable {trees : TreeParser} {parser : Parser α}

/-- Two operands with a comparison between them.  Building tells the comparisons apart by the rule
of the part. -/
theorem agrees_comparing (identity value : α → α → β)
    (agrees : Agrees trees parser (One operand build))
    (same : ∀ text left operator right, role (Part.of name text [left, operator, right]) =
      build left >>= fun first => build right >>= fun second =>
        return if operator.rule = .identityOperator then identity first second
          else value first second) :
    Agrees (node name (spaced [trees, comparisonNode, trees])) (rule name do
      let left ← parser
      blanks
      let comparison ← comparison
      blanks
      let right ← parser
      return match comparison with
        | .identity => identity left right
        | .value => value left right) (One name role) := by
  refine .becomes (agrees.spaced ?_)
  rintro nodes found left ⟨part, parts, _, built⟩
  refine agrees_comparison.spaced ?_
  rintro _ _ comparison ⟨rfl, tree, rfl, isIdentity⟩
  refine agrees.mapSecond ?_
  rintro others later right ⟨other, otherParts, _, otherBuilt⟩ text
  rw [Tree.parts_append, Tree.parts_append, parts, otherParts]
  refine (same text part tree.part other).trans ?_
  simp only [built, otherBuilt, isIdentity]
  cases comparison <;> exact verdict_bind (verdict_map _)

end Comparisons

section Separators

variable {name : Rule} {build : Part → Built α} {trees : TreeParser} {parser : Parser α}

/-- A list with commas between its items. -/
theorem Agrees.commas (agrees : Agrees trees parser (One name build)) :
    Agrees (Grammar.listed (sign ",") trees) (separated comma parser) fun nodes found read =>
      Yields name build (Tree.parts nodes) found (read.1 :: read.2) :=
  (agrees.listed (agrees_sign ",")).imp fun _ _ _ listing =>
    listing.yields additive_parts (fun _ none => by rw [none, Tree.parts]) fun _ _ _ one => one

/-- A list with keywords between its items. -/
theorem Agrees.keywords {word : Rule} {spelling : String}
    (agrees : Agrees trees parser (One name build)) (kept : name.isPassedOver = false)
    (passed : word.isPassedOver = true) :
    Agrees (Grammar.listed (keywordNode word spelling) trees)
      (separated (keyword word spelling) parser) fun nodes found read =>
        Yields name build (Tree.significant nodes) found (read.1 :: read.2) :=
  (agrees.listed (agrees_passedOver passed)).imp fun _ _ _ listing =>
    listing.yields additive_significant (fun _ none => none) fun _ _ _ one => one.significant kept

end Separators

end Parser
end TreeQuery.Grammar
