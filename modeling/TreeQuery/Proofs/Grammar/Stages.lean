import TreeQuery.Proofs.Grammar.BuiltQueries
import TreeQuery.Proofs.Grammar.Image
import TreeQuery.Proofs.Grammar.Levels

/-!
# Reading in two stages

At every text the tree of the grammar is built without lacking a part, and what is built is what
reading at once comes to.  A text that is not read either leaves the grammar, at a line and a column
that are both at least one, or holds a constructor whose tags differ; a document path holds no
constructors (`parseInStages_alike`).
-/

set_option autoImplicit false

namespace TreeQuery

open Grammar Grammar.Parser

/-! ## What reading comes to -/

/-- What reading in stages comes to, beside what reading at once comes to: the same value, the same
clash of different tags, or the same mismatch, at a line and a column that are counted from one. -/
inductive ReadAlike {α : Type} : Except Flaw α → Except Failure α → Prop where
  | read (value : α) : ReadAlike (.ok value) (.ok value)
  | tagClash (clash : TagClash) (differ : clash.opening ≠ clash.closing) :
      ReadAlike (.error (.tagClash clash)) (.error (.tagClash clash))
  | ungrammatical (mismatch : Mismatch) (line : 1 ≤ mismatch.position.line)
      (column : 1 ≤ mismatch.position.column) :
      ReadAlike (.error (.mismatch mismatch)) (.error (.ungrammatical mismatch))

/-- What is read in the same way at once has no malformed tree, and no flaw outside the text. -/
theorem ReadAlike.flaw {α : Type} {staged : Except Flaw α} {read : Except Failure α}
    (alike : ReadAlike staged read) {flaw : Flaw} (flawed : staged = .error flaw) :
    (∀ part, flaw ≠ .missing part) ∧ flaw.position? ≠ some ⟨0, 0⟩ := by
  cases alike with
  | read value => cases flawed
  | tagClash clash differ =>
      cases flawed
      exact ⟨nofun, nofun⟩
  | ungrammatical mismatch line column =>
      cases flawed
      refine ⟨nofun, fun same => ?_⟩
      have atZero : mismatch.position = ⟨0, 0⟩ := Option.some.inj same
      rw [atZero] at line
      exact Nat.not_succ_le_zero 0 line

/-! ## Whole texts -/

namespace Grammar.Parser

variable {α : Type} {name inner : Rule} {role root : Part → Built α} {trees : TreeParser}
variable {parser : Parser α}

/-- A whole text leaves one node, below which there are that of its rule and the end of the
input. -/
theorem Agrees.whole (agrees : Agrees trees parser (One inner role))
    (kept : inner.isPassedOver = false)
    (same : ∀ text parts part, Part.significant parts = [part] →
      root (Part.of name text parts) = role part) :
    Agrees (wholeTree name trees) (Parser.whole name parser) (One name root) := by
  have start : Agrees (succeed ([] : List Tree)) (succeed ()) Leafless := .pure ⟨rfl, rfl⟩
  have inside : Agrees (Grammar.spaced [succeed [], trees, endNode]) (do
      succeed ()
      blanks
      let value ← parser
      blanks
      endOfInput
      return value) fun nodes found value =>
        ∀ text, root (Part.of name text (Tree.parts nodes)) = verdict found value := by
    refine start.spaced ?_
    rintro _ _ _ ⟨rfl, rfl⟩
    refine agrees.spaced fun nodes found value one => ?_
    refine Agrees.map Steady.endOfInput ?_
    rintro _ _ _ ⟨rfl, rfl⟩ text
    obtain ⟨part, parts, _, built⟩ := one.significant kept
    have seen : Tree.significant (nodes ++ [.node .endOfInput "" []]) = [part] := by
      rw [additive_significant.append, parts, significant_keyword rfl, List.append_nil]
    rw [Option.or_none]
    exact (same text _ part seen).trans built
  exact .becomes inside

/-- Building from the tree of a whole text is reading the text at once. -/
theorem Agrees.run_whole (agrees : Agrees trees parser (One name root)) (what : String)
    (text : String) : ReadAlike (TreeParser.run trees what root text) (parser.run text) := by
  rcases Agrees.run agrees false 0 text.toList none Attempts.none with
    ⟨tried, ran, ranToo⟩ | ⟨nodes, found, value, next, left, tried, genuine, one, ran, ranToo⟩
  · have position := Text.Position.one_le_after (text.toList.take tried.offset)
    rw [TreeParser.run, Parser.run, Cursor.start, ran, ranToo]
    exact .ungrammatical _ position.1 position.2
  · obtain ⟨part, parts, _, built⟩ := one
    have staged : TreeParser.run trees what root text = verdict found value := by
      rw [TreeParser.run, Cursor.start, ran, ← built]
      show (Part.expect what (Tree.parts nodes) >>= fun read => root read.1) = _
      rw [parts]
      rfl
    rw [staged, Parser.run, Cursor.start, ranToo]
    cases found with
    | none => exact .read value
    | some clash => exact .tagClash clash (genuine clash rfl)

end Grammar.Parser

/-! ## Queries and document paths -/

theorem agrees_wholeQuery (levels : Nat) :
    Agrees (wholeTree .wholeQuery (queryTrees (pathTrees levels).path levels).query)
      (Parser.whole .wholeQuery (queryLevel (pathLevel levels).path levels).query)
      (One .wholeQuery Part.wholeQuery) := by
  refine (queryTrees_agree (pathTrees_agree levels).path levels).query.whole rfl ?_
  intro text parts part seen
  show Part.wholeQueryOf parts = _
  rw [Part.wholeQueryOf, seen]
  rfl

theorem agrees_wholePath (levels : Nat) :
    Agrees (wholeTree .wholePath (documentPathNode (pathTrees levels).path))
      (Parser.whole .wholePath (documentPath (pathLevel levels).path))
      (One .wholePath Part.wholePath) := by
  have path : Agrees (documentPathNode (pathTrees levels).path)
      (documentPath (pathLevel levels).path) (One .documentPath Part.documentPath) := by
    refine (agrees_documentPath (pathTrees_agree levels).path).imp ?_
    rintro _ found path ⟨text, children, rfl, built⟩
    exact ⟨_, rfl, rfl, built⟩
  refine path.whole rfl ?_
  intro text parts part seen
  show Part.wholePathOf parts = _
  rw [Part.wholePathOf, seen]
  rfl

theorem Grammar.Parser.Decides.endOfInput : Decides Parser.endOfInput := by
  intro text
  cases text with
  | nil => exact .inl ⟨(), [], List.suffix_rfl, reads_endOfInput⟩
  | cons c rest => exact .inr (Fails.rule fun _ _ _ tried => ⟨tried, rfl⟩)

theorem decides_documentPath (levels : Nat) : Decides (documentPath (pathLevel levels).path) :=
  ((((Decides.word _).rule.andThen fun _ => Decides.stringLiteral.enclosed).rule).andThen fun _ =>
    Decides.axis.andThen fun _ => (pathLevel_decided levels).path.map).rule

/-- Document paths hold no constructors. -/
theorem DocumentPath.parse_ne_tagClash (text : String) (clash : TagClash) :
    DocumentPath.parse text ≠ .error (.tagClash clash) := by
  have decides : Decides (Parser.whole .wholePath (documentPath (pathFor text))) :=
    (Decides.blanks.bind fun _ => (decides_documentPath _).andThen fun _ =>
      Decides.endOfInput.bind fun _ => .pure).rule
  intro clashes
  rw [DocumentPath.parse, Parser.run, Cursor.start] at clashes
  rcases decides text.toList with ⟨value, rest, _, reads⟩ | fails
  · obtain ⟨later, tried, run⟩ := reads false 0 none Attempts.none
    rw [run] at clashes
    cases clashes
  · obtain ⟨tried, run⟩ := fails false 0 none Attempts.none
    rw [run] at clashes
    cases clashes

/-- At every text and with any number of further levels, building from the tree of the grammar comes
to the query that is read at once, or to the clash that is reported, or there is no tree and the
text is reported to leave the grammar at a line and a column.  For document paths it is the same
without clashes.  No tree is malformed, and nothing is reported where no text has a character. -/
theorem parseInStages_alike (text : String) (further : Nat) :
    ReadAlike (Query.parseInStages further text) (Query.parse text) ∧
    ReadAlike (DocumentPath.parseInStages further text) (DocumentPath.parse text) ∧
    (∀ clash, DocumentPath.parse text ≠ .error (.tagClash clash)) ∧
    ∀ flaw, Query.parseInStages further text = .error flaw ∨
        DocumentPath.parseInStages further text = .error flaw →
      (∀ part, flaw ≠ .missing part) ∧ flaw.position? ≠ some ⟨0, 0⟩ := by
  have query : ReadAlike (Query.parseInStages further text) (Query.parse text) := by
    rw [← Query.run_levels text further]
    exact (agrees_wholeQuery _).run_whole "query" text
  have path : ReadAlike (DocumentPath.parseInStages further text) (DocumentPath.parse text) := by
    rw [← DocumentPath.run_levels text further]
    exact (agrees_wholePath _).run_whole "xpath" text
  refine ⟨query, path, DocumentPath.parse_ne_tagClash text, ?_⟩
  rintro flaw (flawed | flawed)
  · exact query.flaw flawed
  · exact path.flaw flawed

end TreeQuery
