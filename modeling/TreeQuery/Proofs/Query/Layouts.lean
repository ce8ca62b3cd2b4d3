import Mathlib.Data.List.Forall2
import TreeQuery.Proofs.Grammar.Texts
import TreeQuery.Proofs.Query.Tokens

/-!
# Printed forms are layouts

The printed form of a path, and both printed forms of a query, are laid out from its tokens.
Reading them therefore comes to reading the tokens, and the two forms of a query are read
alike.
-/

set_option autoImplicit false

namespace TreeQuery

open Grammar

variable {tokens others : List String} {text : String}

/-! ## Signs -/

theorem laidOut_opening : LaidOut ["("] "(" := laidOut_spaced _ [] "(" [] rfl (by decide)

theorem laidOut_closing : LaidOut [")"] ")" := laidOut_spaced _ [] ")" [] rfl (by decide)

theorem laidOut_comma : LaidOut [","] ", " := laidOut_spaced _ [] "," [' '] rfl (by decide)

theorem laidOut_hangingComma : LaidOut [","] ",\n    " :=
  laidOut_spaced _ [] "," ['\n', ' ', ' ', ' ', ' '] rfl (by decide)

theorem laidOut_separator (axis : Axis) : LaidOut [axis.separator] axis.separator := by
  cases axis <;> exact laidOut_spaced _ [] _ [] (by decide) (by decide)

theorem apart_separator (axis : Axis) :
    startsApart axis.separator = true ∧ endsApart axis.separator = true := by
  cases axis <;> decide

theorem Grammar.LaidOut.parenthesized (laidOut : LaidOut tokens text) :
    LaidOut ("(" :: (tokens ++ [")"])) ("(" ++ text ++ ")") :=
  laidOut_opening.append laidOut (apart_of_endsApart rfl text) |>.append laidOut_closing
    (apart_of_startsApart _ rfl)

theorem Grammar.LaidOut.parenthesizedIf (needed : Bool) (laidOut : LaidOut tokens text) :
    LaidOut (enclosedIf needed tokens) (parenthesizedIf needed text) := by
  cases needed with
  | false => exact laidOut
  | true => exact laidOut.parenthesized

/-! ## Paths -/

mutual
theorem Path.laidOut : (path : Path) → path.isPrintable = true → LaidOut path.tokens path.print
  | .tag _, printable => laidOut_token (isToken_name (isName_of_isTagName printable))
  | .wildcard, _ => laidOut_spaced _ [] "*" [] rfl (by decide)
  | .current, _ => laidOut_spaced _ [] "." [] rfl (by decide)
  | .parent, _ => laidOut_spaced _ [] ".." [] rfl (by decide)
  | .text, _ =>
      (laidOut_spaced "text" [] "text" [] rfl (by decide)).append
        (laidOut_opening.append laidOut_closing (apart_of_endsApart rfl ")"))
        (apart_of_startsApart "text" rfl)
  | .attribute _, printable => laidOut_token (isToken_attributeToken printable)
  | .parenthesized inner, printable => by
      rw [Path.tokens_parenthesized, Path.print]
      exact (inner.laidOut printable).parenthesized
  | .step left axis right, printable => by
      rw [Path.isPrintable, Bool.and_eq_true] at printable
      rw [Path.tokens, Path.print]
      exact ((left.laidOut printable.1).parenthesizedIf _).around (laidOut_separator axis)
        ((right.laidOut printable.2).parenthesizedIf _) (apart_separator axis).1
        (apart_separator axis).2
  | .filtered base filter, printable => by
      rw [Path.isPrintable, Bool.and_eq_true] at printable
      rw [Path.tokens, Path.print, String.append_assoc]
      refine ((base.laidOut printable.1).parenthesizedIf _).around
        (laidOut_spaced _ [] "[" [] rfl (by decide)) ?_ rfl rfl
      exact (filter.laidOut printable.2).append (laidOut_spaced _ [] "]" [] rfl (by decide))
        (apart_of_startsApart _ rfl)
  | .pair left right, printable => by
      rw [Path.isPrintable, Bool.and_eq_true] at printable
      rw [Path.tokens, Path.print]
      exact (left.laidOut printable.1).around laidOut_comma
        ((right.laidOut printable.2).parenthesizedIf _) rfl rfl

theorem Filter.laidOut : (filter : Filter) → filter.isPrintable = true →
    LaidOut filter.tokens filter.print
  | .path path, printable => by
      rw [Filter.tokens, Filter.print]
      exact (path.laidOut printable).parenthesizedIf _
  | .valueEq left right, printable => by
      rw [Filter.isPrintable, Bool.and_eq_true] at printable
      rw [Filter.tokens, Filter.print]
      exact ((left.laidOut printable.1).parenthesizedIf _).around
        (laidOut_spaced _ [' '] "=" [' '] rfl (by decide))
        ((right.laidOut printable.2).parenthesizedIf _)
        rfl rfl
  | .identityEq left right, printable => by
      rw [Filter.isPrintable, Bool.and_eq_true] at printable
      rw [Filter.tokens, Filter.print]
      exact ((left.laidOut printable.1).parenthesizedIf _).around
        (laidOut_spaced _ [' '] "==" [' '] rfl (by decide))
        ((right.laidOut printable.2).parenthesizedIf _)
        rfl rfl
  | .constantEq path value, printable => by
      rw [Filter.isPrintable, Bool.and_eq_true] at printable
      have spelled : parenthesizedIf (path.tightness < 1) path.print ++ " = \"" ++ value ++ "\"" =
          parenthesizedIf (path.tightness < 1) path.print ++ " = " ++ stringToken value := by
        rw [stringToken, show " = \"" = " = " ++ "\"" from rfl]
        simp only [String.append_assoc]
      rw [Filter.tokens, Filter.print, spelled]
      exact ((path.laidOut printable.1).parenthesizedIf _).around
        (laidOut_spaced _ [' '] "=" [' '] rfl (by decide))
        (laidOut_token (isToken_stringToken printable.2)) rfl rfl
  | .parenthesized inner, printable => by
      rw [Filter.tokens_parenthesized, Filter.print]
      exact (inner.laidOut printable).parenthesized
  | .and left right, printable => by
      rw [Filter.isPrintable, Bool.and_eq_true] at printable
      rw [Filter.tokens, Filter.print]
      exact ((left.laidOut printable.1).parenthesizedIf _).around
        (laidOut_spaced _ [' '] "and" [' '] rfl (by decide))
        ((right.laidOut printable.2).parenthesizedIf _) rfl rfl
  | .or left right, printable => by
      rw [Filter.isPrintable, Bool.and_eq_true] at printable
      rw [Filter.tokens, Filter.print]
      exact (left.laidOut printable.1).around (laidOut_spaced _ [' '] "or" [' '] rfl (by decide))
        ((right.laidOut printable.2).parenthesizedIf _) rfl rfl
  | .not inner, printable => by
      rw [Filter.tokens, Filter.print]
      exact (laidOut_spaced _ [] "not" [' '] rfl (by decide)).append
        ((inner.laidOut printable).parenthesizedIf _) (apart_of_endsApart rfl _)
end

theorem Path.laidOut_operand {path : Path} (printable : path.isPrintable = true) :
    LaidOut (path.operand 1).tokens path.printOperand := by
  rw [Path.tokens_operand, Path.printOperand]
  exact (path.laidOut printable).parenthesizedIf _

theorem DocumentPath.laidOut {path : DocumentPath} (printable : path.isPrintable = true) :
    LaidOut path.tokens path.print := by
  rw [DocumentPath.isPrintable, Bool.and_eq_true] at printable
  have spelled : path.print = "doc" ++ ("(" ++ stringToken path.document ++ ")") ++
      path.axis.separator ++ path.path.printOperand := by
    rw [DocumentPath.print, stringToken, show "doc(\"" = "doc" ++ ("(" ++ "\"") from rfl,
      show "\")" = "\"" ++ ")" from rfl]
    simp only [String.append_assoc]
  have call := (laidOut_spaced "doc" [] "doc" [] rfl (by decide)).append
    (laidOut_token (isToken_stringToken printable.1)).parenthesized (by
      rw [String.append_assoc]
      exact apart_of_startsApart "doc" (by simp [startsApart]; decide))
  rw [spelled]
  exact call.around (laidOut_separator path.axis) (Path.laidOut_operand printable.2)
    (apart_separator path.axis).1 (apart_separator path.axis).2

/-! ## Lists -/

/-- Texts put together with a separator. -/
theorem laidOut_intercalate {middle : List String} {separator : String}
    (laidOut : LaidOut middle separator) (starts : startsApart separator = true)
    (ends : endsApart separator = true) {parts : List (List String)} {texts : List String}
    (all : List.Forall₂ LaidOut parts texts) :
    LaidOut ((parts.flatMap (middle ++ ·)).drop middle.length) (separator.intercalate texts) := by
  induction all with
  | nil => simpa [LaidOut] using (.done (List.forall_mem_nil _) : Grammar.Layout [] [])
  | @cons part text parts texts first others ih =>
      rw [List.flatMap_cons, List.append_assoc, List.drop_left]
      cases others with
      | nil => simpa using first
      | @cons next text parts texts second others =>
          rw [String.intercalate_cons_cons]
          rw [List.flatMap_cons, List.append_assoc, List.drop_left] at ih
          rw [List.flatMap_cons, List.append_assoc]
          exact first.around laidOut ih starts ends

theorem laidOut_printTags {tags : List String} (named : ∀ tag ∈ tags, isName tag = true) :
    LaidOut (tagTokens tags) (printTags tags) := by
  have all : List.Forall₂ LaidOut (tags.map fun tag => [tag]) tags := by
    rw [List.forall₂_map_left_iff, List.forall₂_same]
    exact fun tag member => laidOut_token (isToken_name (named tag member))
  have inner := laidOut_intercalate laidOut_comma rfl rfl all
  rw [List.flatMap_map, List.length_singleton, List.drop_one] at inner
  rw [printTags]
  exact ((laidOut_spaced "[" [] "[" [] rfl (by decide)).append inner
    (apart_of_endsApart rfl _)).append
    (laidOut_spaced "]" [] "]" [] rfl (by decide)) (apart_of_startsApart _ rfl)

/-! ## Parts of a query -/

theorem laidOut_printElement {name : String} (named : isName name = true)
    (laidOut : LaidOut tokens text) :
    LaidOut ("<" :: name :: ">" :: "\x7b" :: (tokens ++ ["\x7d", "<", "/", name, ">"]))
      (printElement name text) := by
  have laidOutName := laidOut_token (isToken_name named)
  have middle : LaidOut [">", "\x7b"] ">\x7b" := laidOut_signs rfl (by decide)
  have closing : LaidOut ["\x7d", "<", "/"] "\x7d</" := laidOut_signs rfl (by decide)
  have last : LaidOut [">"] ">" := laidOut_signs rfl (by decide)
  have opening : LaidOut ["<", name] ("<" ++ name) :=
    (laidOut_spaced _ [] "<" [] rfl (by decide)).append laidOutName (apart_of_endsApart rfl name)
  have body := (opening.around middle laidOut rfl rfl).around closing laidOutName rfl rfl
  rw [printElement]
  simpa using body.append last (apart_of_startsApart _ rfl)

/-- A text with gaps around it. -/
theorem Grammar.LaidOut.between {before after : String} (laidOut : LaidOut tokens text)
    (blank : before.toList.all isGap = true) (blankAfter : after.toList.all isGap = true)
    (starts : startsApart after = true) : LaidOut tokens (before ++ text ++ after) := by
  rw [List.all_eq_true] at blank blankAfter
  have laidOutAfter : LaidOut [] after := .done blankAfter
  have whole := laidOut.append laidOutAfter (apart_of_startsApart text starts)
  rw [List.append_nil] at whole
  rw [String.append_assoc, LaidOut, String.toList_append]
  exact whole.gap_append _ blank

theorem laidOut_join {opening separator closing left right : String}
    {leftTokens rightTokens leftTags rightTags : List String}
    (laidOutOpening : LaidOut ["join", "("] opening) (endsOpening : endsApart opening = true)
    (laidOutSeparator : LaidOut [","] separator) (starts : startsApart separator = true)
    (ends : endsApart separator = true)
    (laidOutClosing : LaidOut [")"] closing) (startsClosing : startsApart closing = true)
    {leftTagText rightTagText : String}
    (laidOutLeft : LaidOut leftTokens left) (laidOutRight : LaidOut rightTokens right)
    (laidOutLeftTags : LaidOut (tagTokens leftTags) leftTagText)
    (laidOutRightTags : LaidOut (tagTokens rightTags) rightTagText) :
    LaidOut ("join" :: "(" :: (leftTokens ++ "," :: (rightTokens ++
        "," :: (tagTokens leftTags ++ "," :: (tagTokens rightTags ++ [")"])))))
      (opening ++ separator.intercalate [left, right, leftTagText, rightTagText] ++ closing) := by
  have all : List.Forall₂ LaidOut
      [leftTokens, rightTokens, tagTokens leftTags, tagTokens rightTags]
      [left, right, leftTagText, rightTagText] := by
    simp [laidOutLeft, laidOutRight, laidOutLeftTags, laidOutRightTags]
  have operands := laidOut_intercalate laidOutSeparator starts ends all
  have whole := (laidOutOpening.append operands (apart_of_endsApart endsOpening _)).append
    laidOutClosing (apart_of_startsApart _ startsClosing)
  simpa using whole

/-- A clause and its bindings. -/
theorem laidOut_clause {keyword operator opening separator : String} {bindings : List Binding}
    {texts : List String} (laidOut : LaidOut [keyword] opening) (ends : endsApart opening = true)
    (laidOutSeparator : LaidOut [","] separator) (startsSeparator : startsApart separator = true)
    (endsSeparator : endsApart separator = true)
    (all : List.Forall₂ LaidOut (bindings.map fun binding => (binding.part operator).1) texts) :
    LaidOut (keyword :: (Binding.tokensAll operator bindings).tail)
      (opening ++ separator.intercalate texts) := by
  have inner := laidOut_intercalate laidOutSeparator startsSeparator endsSeparator all
  have spelled : ((bindings.map fun binding => (binding.part operator).1).flatMap
      (["," ] ++ ·)).drop 1 = (Binding.tokensAll operator bindings).tail := by
    rw [Binding.tokensAll_eq, List.flatMap_map, List.flatMap_map, List.drop_one]
    rfl
  rw [List.length_singleton, spelled] at inner
  exact laidOut.append inner (apart_of_endsApart ends _)

/-- The clauses of an expression, one after the other. -/
theorem laidOut_flwr {separator bindingsText resultText : String}
    {bindingsTokens resultTokens : List String} {letsTokens whereTokens : List (List String)}
    {letsTexts whereTexts : List String} (blank : separator.toList.all isGap = true)
    (starts : startsApart separator = true) (ends : endsApart separator = true)
    (laidOut : LaidOut bindingsTokens bindingsText)
    (laidOutLets : List.Forall₂ LaidOut letsTokens letsTexts)
    (laidOutWhere : List.Forall₂ LaidOut whereTokens whereTexts)
    (laidOutResult : LaidOut resultTokens resultText) :
    LaidOut (bindingsTokens ++ (letsTokens.flatten ++ (whereTokens.flatten ++ resultTokens)))
      (separator.intercalate ([bindingsText] ++ letsTexts ++ whereTexts ++ [resultText])) := by
  have gap : LaidOut [] separator := .done (List.all_eq_true.mp blank)
  have all := List.rel_append (List.rel_append (List.rel_append
    (List.Forall₂.cons laidOut .nil) laidOutLets) laidOutWhere) (.cons laidOutResult .nil)
  have whole := laidOut_intercalate gap starts ends all
  simpa [List.flatMap_id'] using whole

/-! ## Queries on one line -/

/-- The tokens of a `let` clause, if there is one. -/
def letTokens (lets : List Binding) : List (List String) :=
  if lets.isEmpty then [] else ["let" :: (Binding.tokensAll ":=" lets).tail]

/-- The tokens of a `where` clause, if there is one. -/
def Condition.whereTokens : Option Condition → List (List String)
  | none => []
  | some condition => ["where" :: condition.tokens]

theorem tokens_flwr (bindings lets : List Binding) (condition : Option Condition) (result : Query) :
    (Query.flwr bindings lets condition result).tokens =
      ("for" :: (Binding.tokensAll "in" bindings).tail) ++ ((letTokens lets).flatten ++
        ((Condition.whereTokens condition).flatten ++ "return" :: result.tokens)) := by
  rw [Query.tokens, letTokens]
  cases lets <;> cases condition <;> simp [Condition.tokensWhere, Condition.whereTokens]

section

variable {binder : String → Bool} {base : Query → Bool}

mutual
theorem Query.laidOut_inline : (query : Query) → query.isPrintableWith binder base = true →
    LaidOut query.tokens query.inline
  | .reference _, printable => laidOut_token (isToken_referenceToken printable)
  | .constant _, printable => laidOut_token (isToken_stringToken printable)
  | .document _, printable => by
      rw [Query.tokens, Query.inline]
      exact DocumentPath.laidOut printable
  | .parenthesized inner, printable => by
      rw [Query.tokens_parenthesized, Query.inline]
      exact (inner.laidOut_inline printable).parenthesized
  | .pair left right, printable => by
      rw [Query.isPrintableWith, Bool.and_eq_true] at printable
      rw [Query.tokens, Query.inline]
      exact ((left.laidOut_inline printable.1).parenthesizedIf _).around laidOut_comma
        ((right.laidOut_inline printable.2).parenthesizedIf _) rfl rfl
  | .step query axis path, printable => by
      rw [Query.isPrintableWith, Bool.and_eq_true, Bool.and_eq_true] at printable
      rw [Query.tokens, Query.inline]
      exact ((query.laidOut_inline printable.1.2).parenthesizedIf _).around (laidOut_separator axis)
        (Path.laidOut_operand printable.2) (apart_separator axis).1 (apart_separator axis).2
  | .element _ body, printable => by
      rw [Query.isPrintableWith, Bool.and_eq_true] at printable
      rw [Query.tokens, Query.inline]
      exact laidOut_printElement printable.1 (body.laidOut_inline printable.2)
  | .join left right _ _, printable => by
      rw [Query.isPrintableWith, Bool.and_eq_true, Bool.and_eq_true, Bool.and_eq_true] at printable
      rw [Query.tokens, Query.inline]
      have opening : LaidOut ["join", "("] "join(" :=
        (laidOut_spaced "join" [] "join" [] rfl (by decide)).append laidOut_opening
          (apart_of_startsApart _ rfl)
      exact laidOut_join opening rfl laidOut_comma rfl rfl laidOut_closing rfl
        ((left.laidOut_inline printable.1.1.1).parenthesizedIf _)
        ((right.laidOut_inline printable.1.1.2).parenthesizedIf _)
        (laidOut_printTags (List.all_eq_true.mp printable.1.2))
        (laidOut_printTags (List.all_eq_true.mp printable.2))
  | .letIn bindings body, printable => by
      rw [Query.isPrintableWith, Bool.and_eq_true, Bool.and_eq_true] at printable
      rw [Query.tokens, Query.inline]
      have clause := laidOut_clause (laidOut_spaced "let " [] "let" [' '] rfl (by decide))
        rfl laidOut_comma rfl rfl (Binding.laidOut_inlineAll bindings printable.1.2
          (laidOut_spaced " := " [' '] ":=" [' '] rfl (by decide)) rfl rfl)
      exact clause.around (.done (List.all_eq_true.mp rfl)) (body.laidOut_inline printable.2)
        rfl rfl
  | .flwr bindings lets condition result, printable => by
      rw [Query.isPrintableWith, Bool.and_eq_true, Bool.and_eq_true, Bool.and_eq_true,
        Bool.and_eq_true] at printable
      rw [tokens_flwr, Query.inline]
      have forClause := laidOut_clause
        (laidOut_spaced "for " [] "for" [' '] rfl (by decide)) rfl laidOut_comma rfl rfl
        (Binding.laidOut_inlineAll bindings printable.1.1.1.2
          (laidOut_spaced " in " [' '] "in" [' '] rfl (by decide)) rfl rfl)
      have letClause := laidOut_clause
        (laidOut_spaced "let " [] "let" [' '] rfl (by decide)) rfl laidOut_comma rfl rfl
        (Binding.laidOut_inlineAll lets printable.1.1.2
          (laidOut_spaced " := " [' '] ":=" [' '] rfl (by decide)) rfl rfl)
      have returnClause := (laidOut_spaced "return " [] "return" [' '] rfl
        (by decide)).append (result.laidOut_inline printable.2) (apart_of_endsApart rfl _)
      refine laidOut_flwr (by decide) rfl rfl forClause ?_
        (Condition.laidOut_inlineWhere condition printable.1.2) returnClause
      rw [letTokens]
      split
      · exact .nil
      · exact .cons letClause .nil

theorem Condition.laidOut_inline : (condition : Condition) →
    condition.isPrintableWith binder base = true → LaidOut condition.tokens condition.inline
  | .valueEq left right, printable => by
      rw [Condition.isPrintableWith, Bool.and_eq_true] at printable
      rw [Condition.tokens, Condition.inline]
      exact ((left.laidOut_inline printable.1).parenthesizedIf _).around
        (laidOut_spaced _ [' '] "=" [' '] rfl (by decide))
        ((right.laidOut_inline printable.2).parenthesizedIf _) rfl rfl
  | .identityEq left right, printable => by
      rw [Condition.isPrintableWith, Bool.and_eq_true] at printable
      rw [Condition.tokens, Condition.inline]
      exact ((left.laidOut_inline printable.1).parenthesizedIf _).around
        (laidOut_spaced _ [' '] "==" [' '] rfl (by decide))
        ((right.laidOut_inline printable.2).parenthesizedIf _) rfl rfl
  | .empty query, printable => by
      have opening : LaidOut ["empty", "("] "empty(" :=
        (laidOut_spaced "empty" [] "empty" [] rfl (by decide)).append laidOut_opening
          (apart_of_startsApart _ rfl)
      rw [Condition.tokens, Condition.inline]
      exact (opening.append (query.laidOut_inline printable) (apart_of_endsApart rfl _)).append
        laidOut_closing (apart_of_startsApart _ rfl)
  | .someSatisfies bindings body, printable => by
      rw [Condition.isPrintableWith, Bool.and_eq_true, Bool.and_eq_true] at printable
      rw [Condition.tokens, Condition.inline]
      have clause := laidOut_clause (laidOut_spaced "some " [] "some" [' '] rfl
        (by decide)) rfl laidOut_comma rfl rfl (Binding.laidOut_inlineAll bindings printable.1.2
          (laidOut_spaced " in " [' '] "in" [' '] rfl (by decide)) rfl rfl)
      exact clause.around (laidOut_spaced _ [' '] "satisfies" [' '] rfl (by decide))
        (body.laidOut_inline printable.2) rfl rfl
  | .parenthesized inner, printable => by
      rw [Condition.tokens_parenthesized, Condition.inline]
      exact (inner.laidOut_inline printable).parenthesized
  | .and left right, printable => by
      rw [Condition.isPrintableWith, Bool.and_eq_true] at printable
      rw [Condition.tokens, Condition.inline]
      exact ((left.laidOut_inline printable.1).parenthesizedIf _).around
        (laidOut_spaced _ [' '] "and" [' '] rfl (by decide))
        ((right.laidOut_inline printable.2).parenthesizedIf _) rfl rfl
  | .or left right, printable => by
      rw [Condition.isPrintableWith, Bool.and_eq_true] at printable
      rw [Condition.tokens, Condition.inline]
      exact ((left.laidOut_inline printable.1).parenthesizedIf _).around
        (laidOut_spaced _ [' '] "or" [' '] rfl (by decide))
        ((right.laidOut_inline printable.2).parenthesizedIf _) rfl rfl
  | .not inner, printable => by
      rw [Condition.tokens, Condition.inline]
      exact (laidOut_spaced _ [] "not" [' '] rfl (by decide)).append
        ((inner.laidOut_inline printable).parenthesizedIf _) (apart_of_endsApart rfl _)

theorem Condition.laidOut_inlineWhere : (condition : Option Condition) →
    Condition.isPrintableIfPresent binder base condition = true →
      List.Forall₂ LaidOut (Condition.whereTokens condition) (Condition.inlineWhere condition)
  | none, _ => .nil
  | some condition, printable =>
      .cons ((laidOut_spaced _ [] "where" [' '] rfl (by decide)).append
        (condition.laidOut_inline printable) (apart_of_endsApart rfl _)) .nil

theorem Binding.laidOut_inlineAll {operator sign : String} : (bindings : List Binding) →
    Binding.arePrintableWith binder base bindings = true → LaidOut [operator] sign →
      startsApart sign = true → endsApart sign = true →
        List.Forall₂ LaidOut (bindings.map fun binding => (binding.part operator).1)
          (Binding.inlineAll sign bindings)
  | [], _, _, _, _ => .nil
  | ⟨name, source⟩ :: rest, printable, laidOut, starts, ends => by
      rw [Binding.arePrintableWith, Bool.and_eq_true, Bool.and_eq_true, Bool.and_eq_true]
        at printable
      rw [List.map_cons, Binding.inlineAll]
      refine .cons ?_ (Binding.laidOut_inlineAll rest printable.2 laidOut starts ends)
      exact (laidOut_token (isToken_referenceToken printable.1.1.1)).around laidOut
        ((source.laidOut_inline printable.1.2).parenthesizedIf _) starts ends
end

/-! ## Queries on several lines -/

theorem Grammar.LaidOut.parenthesizedBlockIf (needed : Bool) (laidOut : LaidOut tokens text) :
    LaidOut (enclosedIf needed tokens) (parenthesizedBlockIf needed text) := by
  rw [TreeQuery.parenthesizedBlockIf]
  cases needed with
  | false => exact laidOut
  | true =>
      simp only [Bool.not_true, Bool.false_eq_true, if_false]
      split
      · have opening : LaidOut ["("] "(\n" := laidOut_spaced _ [] "(" ['\n'] rfl (by decide)
        have closing : LaidOut [")"] "\n)" := laidOut_spaced _ ['\n'] ")" [] rfl (by decide)
        exact (opening.append laidOut.indent (apart_of_endsApart rfl _)).append closing
          (apart_of_startsApart _ rfl)
      · exact laidOut.parenthesized

mutual
theorem Query.laidOut_pretty : (query : Query) → query.isPrintableWith binder base = true →
    LaidOut query.tokens query.pretty
  | .reference name, printable => by
      rw [Query.pretty]
      split <;> exact (Query.reference name).laidOut_inline printable
  | .constant value, printable => by
      rw [Query.pretty]
      split <;> exact (Query.constant value).laidOut_inline printable
  | .document path, printable => by
      rw [Query.pretty]
      split <;> exact (Query.document path).laidOut_inline printable
  | .parenthesized inner, printable => by
      rw [Query.pretty]
      split
      · exact (Query.parenthesized inner).laidOut_inline printable
      · rw [Query.tokens]
        exact (inner.laidOut_pretty printable).parenthesizedBlockIf true
  | .pair left right, printable => by
      rw [Query.pretty]
      split
      · exact (Query.pair left right).laidOut_inline printable
      · rw [Query.isPrintableWith, Bool.and_eq_true] at printable
        rw [Query.tokens]
        exact ((left.laidOut_pretty printable.1).parenthesizedBlockIf _).around
          (laidOut_spaced _ [] "," ['\n'] rfl (by decide))
          ((right.laidOut_pretty printable.2).parenthesizedBlockIf _) rfl rfl
  | .step query axis path, printable => by
      rw [Query.pretty]
      split
      · exact (Query.step query axis path).laidOut_inline printable
      · rw [Query.isPrintableWith, Bool.and_eq_true, Bool.and_eq_true] at printable
        rw [Query.tokens]
        exact ((query.laidOut_pretty printable.1.2).parenthesizedBlockIf _).around
          (laidOut_separator axis) (Path.laidOut_operand printable.2) (apart_separator axis).1
          (apart_separator axis).2
  | .element name body, printable => by
      rw [Query.pretty]
      split
      · exact (Query.element name body).laidOut_inline printable
      · rw [Query.isPrintableWith, Bool.and_eq_true] at printable
        rw [Query.tokens]
        exact laidOut_printElement printable.1
          ((body.laidOut_pretty printable.2).indent.between (by decide) (by decide) rfl)
  | .join left right leftTags rightTags, printable => by
      rw [Query.pretty]
      split
      · exact (Query.join left right leftTags rightTags).laidOut_inline printable
      · rw [Query.isPrintableWith, Bool.and_eq_true, Bool.and_eq_true, Bool.and_eq_true]
          at printable
        rw [Query.tokens]
        have opening : LaidOut ["join", "("] "join(\n" :=
          (laidOut_spaced "join" [] "join" [] rfl (by decide)).append
            (laidOut_spaced "(\n" [] "(" ['\n'] rfl (by decide))
            (apart_of_startsApart _ rfl)
        exact laidOut_join opening rfl (laidOut_spaced _ [] "," ['\n'] rfl (by decide)) rfl rfl
          (laidOut_spaced _ ['\n'] ")" [] rfl (by decide)) rfl
          ((left.laidOut_pretty printable.1.1.1).parenthesizedBlockIf _).indent
          ((right.laidOut_pretty printable.1.1.2).parenthesizedBlockIf _).indent
          (laidOut_printTags (List.all_eq_true.mp printable.1.2)).indent
          (laidOut_printTags (List.all_eq_true.mp printable.2)).indent
  | .letIn bindings body, printable => by
      rw [Query.pretty]
      split
      · exact (Query.letIn bindings body).laidOut_inline printable
      · rw [Query.isPrintableWith, Bool.and_eq_true, Bool.and_eq_true] at printable
        rw [Query.tokens]
        have clause := laidOut_clause
          (laidOut_spaced "let " [] "let" [' '] rfl (by decide)) rfl
          laidOut_hangingComma rfl rfl (Binding.laidOut_prettyAll bindings printable.1.2
            (laidOut_spaced " := " [' '] ":=" [' '] rfl (by decide)) rfl rfl)
        exact clause.around (.done (List.all_eq_true.mp rfl)) (body.laidOut_pretty printable.2)
          rfl rfl
  | .flwr bindings lets condition result, printable => by
      rw [Query.pretty]
      split
      · exact (Query.flwr bindings lets condition result).laidOut_inline printable
      · rw [Query.isPrintableWith, Bool.and_eq_true, Bool.and_eq_true, Bool.and_eq_true,
          Bool.and_eq_true] at printable
        rw [tokens_flwr]
        have forClause := laidOut_clause
          (laidOut_spaced "for " [] "for" [' '] rfl (by decide)) rfl
          laidOut_hangingComma rfl rfl (Binding.laidOut_prettyAll bindings printable.1.1.1.2
            (laidOut_spaced " in " [' '] "in" [' '] rfl (by decide)) rfl rfl)
        have letClause := laidOut_clause
          (laidOut_spaced "let " [] "let" [' '] rfl (by decide)) rfl
          laidOut_hangingComma rfl rfl (Binding.laidOut_prettyAll lets printable.1.1.2
            (laidOut_spaced " := " [' '] ":=" [' '] rfl (by decide)) rfl rfl)
        have returnClause := (laidOut_spaced "return\n" [] "return" ['\n'] rfl
          (by decide)).append (result.laidOut_pretty printable.2).indent (apart_of_endsApart rfl _)
        refine laidOut_flwr (by decide) rfl rfl forClause ?_
          (Condition.laidOut_inlineWhere condition printable.1.2) returnClause
        rw [letTokens]
        split
        · exact .nil
        · exact .cons letClause .nil

theorem Binding.laidOut_prettyAll {operator sign : String} : (bindings : List Binding) →
    Binding.arePrintableWith binder base bindings = true → LaidOut [operator] sign →
      startsApart sign = true → endsApart sign = true →
        List.Forall₂ LaidOut (bindings.map fun binding => (binding.part operator).1)
          (Binding.prettyAll sign bindings)
  | [], _, _, _, _ => .nil
  | ⟨name, source⟩ :: rest, printable, laidOut, starts, ends => by
      rw [Binding.arePrintableWith, Bool.and_eq_true, Bool.and_eq_true, Bool.and_eq_true]
        at printable
      rw [List.map_cons, Binding.prettyAll]
      refine .cons ?_ (Binding.laidOut_prettyAll rest printable.2 laidOut starts ends)
      exact (laidOut_token (isToken_referenceToken printable.1.1.1)).around laidOut
        ((source.laidOut_pretty printable.1.2).parenthesizedBlockIf _).hangingIndent starts ends
end

end

end TreeQuery
