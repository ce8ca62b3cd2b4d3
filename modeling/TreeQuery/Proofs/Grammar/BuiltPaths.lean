import TreeQuery.Proofs.Grammar.BuiltTokens

/-!
# Paths built from their trees

Every rule of paths and filters leaves the children that building expects of it.  So at every text
the tree parser and the parser of a rule agree, and the tree is built into the value that the parser
gives (`pathTrees_agree`).
-/

set_option autoImplicit false

namespace TreeQuery.Grammar

open TreeQuery.Grammar.Parser

/-! ## Steps behind a sign -/

section FurtherSteps

variable {name : Rule} {build : Part → Built Path}

/-- A sign and the path behind it. -/
def FurtherStep (build : Part → Built Path) (nodes : List Tree) (found : Option TagClash)
    (read : Axis × Path) : Prop :=
  ∃ sign path, Tree.parts nodes = [sign, path] ∧ Part.axisOf sign = .ok read.1 ∧
    build path = verdict found read.2

theorem agrees_furtherStep {trees : TreeParser} {parser : Parser Path}
    (agrees : Agrees trees parser (One name build)) :
    Agrees (spaced [axisNode, trees]) (do
      let axis ← axis
      blanks
      return (axis, ← parser)) (FurtherStep build) := by
  refine agrees_axis.spaced ?_
  rintro _ _ axis ⟨rfl, tree, rfl, isAxis, _⟩
  refine agrees.mapSecond ?_
  rintro nodes found path ⟨part, parts, _, built⟩
  refine ⟨tree.part, part, ?_, isAxis, built⟩
  rw [Tree.parts_append, parts]
  rfl

/-- Further steps are added to a path from the left. -/
theorem furtherSteps_eq {nodes : List Tree} {found : Option TagClash} {steps : List (Axis × Path)}
    (series : Series (FurtherStep Part.filtered) nodes found steps) : ∀ left : Path,
      Part.furtherSteps left (Tree.parts nodes) =
        verdict found (steps.foldl (fun left (axis, right) => .step left axis right) left) := by
  induction series with
  | nil => exact fun _ => rfl
  | cons step _ ih =>
      intro left
      obtain ⟨sign, path, parts, isAxis, built⟩ := step
      rw [Tree.parts_append, parts, List.cons_append, List.cons_append, List.nil_append,
        Part.furtherSteps, isAxis, built]
      exact verdict_bind (ih _)

end FurtherSteps

/-! ## Levels -/

/-- The tree parsers of a level agree with its parsers, and their trees are built into the values
of these. -/
structure PathTrees.Agree (trees : PathTrees) (level : PathLevel) : Prop where
  path : Agrees trees.path level.path (One .path Part.path)
  filter : Agrees trees.filter level.filter (One .filter Part.filter)
  negation : Agrees trees.negation level.negation (One .filterNot Part.filter)

namespace PathTrees.Agree

theorem innermost : Agree .innermost .innermost := ⟨.fail, .fail, .fail⟩

variable {trees : PathTrees} {level : PathLevel} (agree : Agree trees level)

/-! ## Paths -/

/-- The sign of a step that consists of nothing else. -/
theorem agrees_signStep (name : Rule) (sign : String) (path : Path)
    (built : ∀ text parts, Part.stepOf name text parts = .ok path) :
    Agrees (node name (Grammar.sign sign)) (rule name do literal sign; return path)
      (One name Part.step) := by
  refine (agrees_signNode name sign path).imp ?_
  rintro _ _ _ ⟨rfl, _, rfl, rfl, text, rfl⟩
  exact ⟨_, rfl, rfl, built text []⟩

theorem agrees_textTest :
    Agrees (node .textTest (spaced [sign "text", sign "(", sign ")"])) (rule .textTest do
      literal "text"
      blanks
      literal "("
      blanks
      literal ")"
      return Path.text) (One .textTest Part.step) := by
  refine .builds (Part.stepOf .textTest "") (fun _ _ => rfl) ?_
  refine .behindSign (.behindSign ?_)
  refine (agrees_sign ")").mapSecond ?_
  rintro _ _ _ ⟨rfl, rfl⟩
  rfl

theorem agrees_attributeStep :
    Agrees (node .attributeStep (adjoined [sign "@", identifierNode])) (rule .attributeStep do
      literal "@"
      return Path.attribute (← identifier)) (One .attributeStep Part.step) := by
  refine .builds (Part.stepOf .attributeStep "") (fun _ _ => rfl) ?_
  refine (agrees_sign "@").adjoined ?_
  rintro _ _ _ ⟨rfl, rfl⟩
  refine agrees_identifier.mapSecond ?_
  rintro _ _ name ⟨rfl, _, rfl, rfl⟩
  rfl

theorem agrees_tagStep :
    Agrees (node .tagStep (spaced [unseen (absent reserved), identifierNode])) (rule .tagStep do
      absent reserved
      blanks
      return Path.tag (← identifier)) (One .tagStep Part.step) := by
  refine .builds (Part.stepOf .tagStep "") (fun _ _ => rfl) ?_
  have unreserved : Steady (absent reserved) := (Steady.word reservedWords).rule.absent
  refine (Agrees.unseen unreserved).spaced ?_
  rintro _ _ _ ⟨rfl, rfl⟩
  refine agrees_identifier.mapSecond ?_
  rintro _ _ name ⟨rfl, _, rfl, rfl⟩
  rfl

include agree

theorem pathAtom : Agrees trees.pathAtom level.pathAtom (One .pathAtom Part.atom) := by
  have parentheses : Agrees (node .pathParentheses (bracketed "(" trees.path ")"))
      (rule .pathParentheses do return Path.parenthesized (← enclosed "(" level.path ")"))
      (One .pathParentheses Part.step) :=
    agree.path.bracketed.wrapped Path.parenthesized fun _ _ => rfl
  refine .builds Part.atomOf (fun _ _ => rfl) ?_
  refine .firstOf (.cons ?_ <| .cons ?_ <| .cons ?_ <| .cons ?_ <| .cons ?_ <| .cons ?_ <|
    .cons ?_ .nil)
  · exact agrees_textTest.chosen fun _ => rfl
  · exact (agrees_signStep .parentStep ".." .parent fun _ _ => rfl).chosen fun _ => rfl
  · exact (agrees_signStep .currentStep "." .current fun _ _ => rfl).chosen fun _ => rfl
  · exact (agrees_signStep .wildcard "*" .wildcard fun _ _ => rfl).chosen fun _ => rfl
  · exact agrees_attributeStep.chosen fun _ => rfl
  · exact parentheses.chosen fun _ => rfl
  · exact agrees_tagStep.chosen fun _ => rfl

theorem pathFiltered :
    Agrees trees.pathFiltered level.pathFiltered (One .pathFiltered Part.filtered) := by
  refine .builds Part.filteredOf (fun _ _ => rfl) ?_
  refine agree.pathAtom.spaced ?_
  rintro nodes found atom ⟨part, parts, _, built⟩
  refine (Agrees.bracketed agree.filter).several.mapSecond fun others later filters series => ?_
  have yields := series.yields additive_parts fun _ _ _ one => one
  rw [Tree.parts_append, parts]
  show (part.atom >>= fun first => Part.joined Part.filter .filtered first _) = _
  rw [built]
  exact verdict_bind (yields.joined atom)

theorem pathSteps : Agrees trees.pathSteps level.pathSteps (One .pathSteps Part.steps) := by
  refine .builds Part.stepsOf (fun _ _ => rfl) ?_
  refine agree.pathFiltered.spaced ?_
  rintro nodes found path ⟨part, parts, _, built⟩
  refine (agrees_furtherStep agree.pathFiltered).several.mapSecond ?_
  intro others later steps series
  rw [Tree.parts_append, parts]
  show (part.filtered >>= fun first => Part.furtherSteps first _) = _
  rw [built]
  exact verdict_bind (furtherSteps_eq series path)

theorem outerPath : Agrees trees.outerPath level.outerPath (One .path Part.path) := by
  refine .builds Part.pathOf (fun _ _ => rfl) ?_
  exact agree.pathSteps.commas.mapSecond fun _ _ _ yields => yields.folded

/-! ## Filters -/

/-- A path with an operator behind it that compares values. -/
theorem filterConstant :
    Agrees (node .filterConstant (spaced [trees.outerPath, valueOperatorNode, stringNode]))
      (rule .filterConstant do
        let path ← level.outerPath
        blanks
        valueOperator
        blanks
        return Filter.constantEq path (← stringLiteral)) (One .filterConstant Part.filter) := by
  refine .builds (Part.filterOf .filterConstant) (fun _ _ => rfl) ?_
  refine agree.outerPath.spaced ?_
  rintro nodes found path ⟨part, parts, _, built⟩
  refine agrees_valueOperator.spaced ?_
  rintro _ _ _ ⟨rfl, tree, rfl, _⟩
  refine agrees_string.mapSecond ?_
  rintro _ _ value ⟨rfl, _, rfl, text, rfl⟩
  rw [Tree.parts_append, parts]
  show (part.path >>= fun path => (.ok (Filter.constantEq path value) : Built Filter)) = _
  rw [built]
  exact verdict_bind rfl

theorem filterComparison :
    Agrees (node .filterComparison (spaced [trees.outerPath, comparisonNode, trees.outerPath]))
      (rule .filterComparison do
        let left ← level.outerPath
        blanks
        let comparison ← comparison
        blanks
        let right ← level.outerPath
        return match comparison with
          | .identity => Filter.identityEq left right
          | .value => Filter.valueEq left right) (One .filterComparison Part.filter) := by
  refine agrees_comparing Filter.identityEq Filter.valueEq agree.outerPath ?_
  intro text left operator right
  rfl

/-- A filter in parentheses, behind which no path goes on. -/
theorem filterParentheses :
    Agrees (node .filterParentheses (spaced [bracketed "(" trees.filter ")",
        unseen (absent (firstOf [do let _ ← axis, literal "[", comma]))]))
      (rule .filterParentheses do
        let filter ← enclosed "(" level.filter ")"
        blanks
        absent <| firstOf [do let _ ← axis, literal "[", comma]
        return Filter.parenthesized filter) (One .filterParentheses Part.filter) := by
  refine .builds (Part.filterOf .filterParentheses) (fun _ _ => rfl) ?_
  refine agree.filter.bracketed.spaced ?_
  rintro nodes found filter ⟨part, parts, _, built⟩
  have goesOn : Steady (firstOf [do let _ ← axis, literal "[", comma]) :=
    Agrees.firstOf (.cons (steady_axis.bind fun _ => .pure ()) <|
      .cons (Steady.literal "[") <| .cons (Steady.literal ",") .nil)
  refine (Agrees.unseen goesOn.absent).mapSecond ?_
  rintro _ _ _ ⟨rfl, rfl⟩
  rw [List.append_nil, Option.or_none, parts]
  show (do return Filter.parenthesized (← part.filter)) = _
  rw [built, verdict_map]

theorem filterPrimary :
    Agrees trees.filterPrimary level.filterPrimary (One .filterPrimary Part.filter) := by
  have path : Agrees (node .filterPath trees.outerPath)
      (rule .filterPath do return Filter.path (← level.outerPath))
      (One .filterPath Part.filter) :=
    agree.outerPath.wrapped Filter.path fun _ _ => rfl
  refine .builds (Part.filterOf .filterPrimary) (fun _ _ => rfl) ?_
  exact .firstOf (.cons (agree.filterConstant.chosen fun _ => rfl) <|
    .cons (agree.filterComparison.chosen fun _ => rfl) <|
    .cons (agree.filterParentheses.chosen fun _ => rfl) <|
    .cons (path.chosen fun _ => rfl) .nil)

theorem outerNegation :
    Agrees trees.outerNegation level.outerNegation (One .filterNot Part.filter) := by
  refine agrees_negation .not agree.negation agree.filterPrimary rfl rfl (by decide) ?_
  intro text parts part seen
  show Part.filterOf .filterNot parts = _
  rw [Part.filterOf, seen]
  rfl

theorem filterAnd : Agrees trees.filterAnd level.filterAnd (One .filterAnd Part.filter) := by
  refine .builds (Part.filterOf .filterAnd) (fun _ _ => rfl) ?_
  exact (agree.outerNegation.keywords rfl rfl).mapSecond fun _ _ _ yields => yields.folded

theorem filterOr : Agrees trees.filterOr level.filterOr (One .filterOr Part.filter) := by
  refine .builds (Part.filterOf .filterOr) (fun _ _ => rfl) ?_
  exact (agree.filterAnd.keywords rfl rfl).mapSecond fun _ _ _ yields => yields.folded

theorem outerFilter : Agrees trees.outerFilter level.outerFilter (One .filter Part.filter) := by
  refine .builds (Part.filterOf .filter) (fun _ _ => rfl) ?_
  exact agree.filterOr.chosen fun _ => rfl

/-- The level outside agrees with the level outside. -/
theorem outside : Agree trees.outside level.outside :=
  ⟨agree.outerPath, agree.outerFilter, agree.outerNegation⟩

end PathTrees.Agree

/-- At every level, paths and filters are built from their trees. -/
theorem pathTrees_agree : ∀ levels : Nat, (pathTrees levels).Agree (pathLevel levels)
  | 0 => .innermost
  | levels + 1 => (pathTrees_agree levels).outside

/-! ## Document paths -/

theorem agrees_documentCall :
    Agrees documentCallNode documentCall (One .documentCall Part.documentName) := by
  refine .builds Part.documentNameOf (fun _ _ => rfl) ?_
  refine (agrees_word .docKeyword ["document", "doc"]).spaced ?_
  rintro _ _ _ ⟨rfl, _, rfl, text, rfl⟩
  refine agrees_string.bracketed.imp ?_
  rintro _ _ name ⟨rfl, _, rfl, text, rfl⟩
  rfl

/-- A document path is built from its call, the sign behind it and its relative path. -/
theorem agrees_documentPath {trees : TreeParser} {parser : Parser Path}
    (agrees : Agrees trees parser (One .path Part.path)) :
    Agrees (documentPathNode trees) (documentPath parser) fun nodes found value =>
      ∃ text children, nodes = [.node .documentPath text children] ∧
        Part.documentPathOf (Tree.parts children) = verdict found value := by
  refine Agrees.node (agrees_documentCall.spaced ?_)
  intro nodes found document call
  obtain ⟨part, parts, _, built⟩ := call.significant rfl
  refine agrees_axis.spaced ?_
  rintro _ _ axis ⟨rfl, tree, rfl, isAxis, kept⟩
  refine agrees.mapSecond ?_
  intro others later path one
  obtain ⟨other, otherParts, _, otherBuilt⟩ := one.significant rfl
  have seen : Tree.significant (nodes ++ ([tree] ++ others)) = [part, tree.part, other] := by
    rw [additive_significant.append, additive_significant.append, parts, otherParts,
      significant_kept kept]
    rfl
  rw [Part.documentPathOf, ← Tree.significant, seen]
  show (part.documentName >>= fun document => Part.axisOf tree.part >>= fun axis => do
    return DocumentPath.mk document axis (← other.path)) = _
  rw [built, isAxis, otherBuilt]
  exact verdict_bind (verdict_map _)

end TreeQuery.Grammar
