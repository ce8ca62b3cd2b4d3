import TreeQuery.Proofs.Grammar.Tokens
import TreeQuery.Query.Printer

/-!
# Laying out printed texts

How printed texts are put together from layouts of their parts.  Two texts are put together
where they do not make up a longer name; a sign between them, with gaps or without, always
keeps them apart.  Indenting a text only widens its gaps, since no token holds a line end.
-/

set_option autoImplicit false

namespace TreeQuery.Grammar

open TreeQuery.Grammar.Parser

/-! ## Gaps -/

variable {tokens others : List String} {text behind : List Char}

theorem Layout.gap_append (gap : List Char) (blank : ∀ c ∈ gap, isGap c = true)
    (layout : Layout tokens text) : Layout tokens (gap ++ text) := by
  cases layout with
  | done blankText =>
      refine .done fun c member => ?_
      rcases List.mem_append.mp member with first | second
      · exact blank c first
      · exact blankText c second
  | @token between _ _ _ blankBetween isToken apart layout =>
      rw [← List.append_assoc]
      refine .token (fun c member => ?_) isToken apart layout
      rcases List.mem_append.mp member with first | second
      · exact blank c first
      · exact blankBetween c second

theorem Apart.of_append {first second third : List Char} (apart : Apart (first ++ second) third)
    (some : second ≠ []) : Apart second third := by
  rw [Apart, List.getLast?_append_of_ne_nil _ some] at apart
  exact apart

theorem Layout.append (layout : Layout tokens text) (layoutBehind : Layout others behind)
    (apart : Apart text behind) : Layout (tokens ++ others) (text ++ behind) := by
  induction layout with
  | done blank => exact layoutBehind.gap_append _ blank
  | @token gap token tokens rest blank isToken apartRest layout ih =>
      obtain ⟨c, more, spelled, _⟩ := isToken.starts
      rw [List.append_assoc, List.append_assoc]
      cases rest with
      | nil =>
          have apartBehind : Apart token.toList behind := by
            rw [List.append_nil] at apart
            exact apart.of_append (by simp [spelled])
          exact .token blank isToken apartBehind (ih (by simp [Apart]))
      | cons d rest =>
          rw [← List.append_assoc] at apart
          exact .token blank isToken (by simpa [Apart] using apartRest)
            (ih (apart.of_append (List.cons_ne_nil _ _)))

/-! ## Laid out texts -/

/-- A printed text that is laid out from tokens. -/
def LaidOut (tokens : List String) (text : String) : Prop := Layout tokens text.toList

variable {first second sign : String} {before after middle : List String}

theorem LaidOut.append (laidOut : LaidOut before first) (laidOutSecond : LaidOut after second)
    (apart : Apart first.toList second.toList) : LaidOut (before ++ after) (first ++ second) := by
  rw [LaidOut, String.toList_append]
  exact Layout.append laidOut laidOutSecond apart

theorem laidOut_token {token : String} (isToken : IsToken token) : LaidOut [token] token := by
  have layout : Layout [token] (token.toList ++ []) :=
    .tight isToken (by simp [Apart]) (.done nofun)
  simpa [LaidOut] using layout

/-- Whether a text starts with a character that is no part of a name. -/
def startsApart (text : String) : Bool := text.toList.head?.any (!continuesName ·)

/-- Whether a text ends with a character that is no part of a name. -/
def endsApart (text : String) : Bool := text.toList.getLast?.any (!continuesName ·)

theorem apart_of_endsApart (ends : endsApart first = true) (second : String) :
    Apart first.toList second.toList := by
  intro c last continues
  rw [endsApart, Option.mem_def.mp last, Option.any_some, continues] at ends
  cases ends

theorem apart_of_startsApart (first : String) (starts : startsApart second = true) :
    Apart first.toList second.toList := by
  intro _ _ _ d head
  rw [startsApart, Option.mem_def.mp head, Option.any_some] at starts
  simpa using starts

/-- Two texts with a sign between them. -/
theorem LaidOut.around (laidOut : LaidOut before first) (laidOutSign : LaidOut middle sign)
    (laidOutSecond : LaidOut after second) (starts : startsApart sign = true)
    (ends : endsApart sign = true) :
    LaidOut (before ++ (middle ++ after)) (first ++ sign ++ second) := by
  rw [String.append_assoc]
  refine laidOut.append (laidOutSign.append laidOutSecond (apart_of_endsApart ends second)) ?_
  apply apart_of_startsApart
  rw [startsApart, Option.any_eq_true] at starts ⊢
  obtain ⟨c, head, solid⟩ := starts
  exact ⟨c, by simp [head], solid⟩

/-- Whether a text can stand as a token. -/
def isSolid (token : String) : Bool :=
  token.toList.head?.any (!isSeparator ·) && token.toList.all fun c => c ≠ '\n' && c ≠ '\r'

theorem isToken_of_isSolid {token : String} (solid : isSolid token = true) : IsToken token := by
  simp only [isSolid, Bool.and_eq_true, List.all_eq_true] at solid
  obtain ⟨c, head, plain⟩ := (Option.any_eq_true _ _).mp solid.1
  obtain ⟨rest, spelled⟩ := List.head?_eq_some_iff.mp head
  exact ⟨⟨c, rest, spelled, by simpa using plain⟩, fun c member => by simpa using solid.2 c member⟩

/-- A token with gaps around it. -/
theorem laidOut_spaced (sign : String) (gap : List Char) (token : String) (space : List Char)
    (spelled : sign.toList = gap ++ (token.toList ++ space))
    (solid : isSolid token && gap.all isGap && space.all isGap) : LaidOut [token] sign := by
  simp only [Bool.and_eq_true, List.all_eq_true] at solid
  obtain ⟨⟨solid, blank⟩, blankSpace⟩ := solid
  rw [LaidOut, spelled]
  refine .token blank (isToken_of_isSolid solid) (fun _ _ _ d head => ?_) (.done blankSpace)
  rw [← Bool.not_eq_true]
  intro continues
  have noSeparator := not_isSeparator_of_continuesName continues
  rw [isSeparator_of_isGap (blankSpace d (List.mem_of_mem_head? head))] at noSeparator
  cases noSeparator

/-- Signs without gaps between them. -/
theorem laidOut_signs {tokens : List String} {text : String}
    (spelled : text.toList = tokens.flatMap String.toList)
    (signs : tokens.all fun token => isSolid token && endsApart token) : LaidOut tokens text := by
  rw [LaidOut, spelled]
  clear spelled
  induction tokens with
  | nil => exact .done nofun
  | cons token tokens ih =>
      rw [List.all_cons, Bool.and_eq_true, Bool.and_eq_true] at signs
      rw [List.flatMap_cons]
      have apart := apart_of_endsApart signs.1.2 (String.ofList (tokens.flatMap String.toList))
      rw [String.toList_ofList] at apart
      exact .tight (isToken_of_isSolid signs.1.1) apart (ih signs.2)

/-! ## Indentation -/

/-- Widening gaps keeps a layout: characters other than line ends stay, and a line end becomes
a gap. -/
theorem Layout.flatMap {widen : Char → List Char} (keeps : ∀ c, c ≠ '\n' → widen c = [c])
    (blank : ∀ c ∈ widen '\n', isGap c = true) (solid : widen '\n' ≠ [])
    (layout : Layout tokens text) : Layout tokens (text.flatMap widen) := by
  have gaps : ∀ c, isGap c = true → ∀ d ∈ widen c, isGap d = true := by
    intro c gap d member
    by_cases lineEnd : c = '\n'
    · exact blank d (lineEnd ▸ member)
    · rw [keeps c lineEnd, List.mem_singleton] at member
      exact member ▸ gap
  induction layout with
  | done blankText =>
      refine .done fun d member => ?_
      obtain ⟨c, listed, widened⟩ := List.mem_flatMap.mp member
      exact gaps c (blankText c listed) d widened
  | @token gap token tokens rest blankGap isToken apart _ ih =>
      have same : token.toList.flatMap widen = token.toList := by
        rw [List.flatMap_congr fun c member => keeps c (isToken.unbroken c member).1]
        exact List.flatMap_singleton' _
      rw [List.flatMap_append, List.flatMap_append, same]
      refine .token (fun d member => ?_) isToken (fun c last continues d head => ?_) ih
      · obtain ⟨c, listed, widened⟩ := List.mem_flatMap.mp member
        exact gaps c (blankGap c listed) d widened
      · cases rest with
        | nil => cases head
        | cons e rest =>
            by_cases lineEnd : e = '\n'
            · obtain ⟨f, others, widened⟩ := List.exists_cons_of_ne_nil solid
              rw [lineEnd, List.flatMap_cons, widened, List.cons_append] at head
              cases head
              rw [← Bool.not_eq_true]
              intro continuesGap
              have noSeparator := not_isSeparator_of_continuesName continuesGap
              rw [isSeparator_of_isGap (blank d (widened ▸ List.mem_cons_self))] at noSeparator
              cases noSeparator
            · rw [List.flatMap_cons, keeps e lineEnd] at head
              obtain rfl : e = d := by simpa using head
              exact apart c last continues e rfl

theorem LaidOut.hangingIndent {text : String} (laidOut : LaidOut tokens text) :
    LaidOut tokens (hangingIndent text) := by
  rw [LaidOut, TreeQuery.hangingIndent, String.toList_ofList]
  exact Layout.flatMap (fun c other => if_neg other) (List.all_eq_true.mp rfl) (by decide) laidOut

/-- A text without the line end it ends in. -/
def dropLineEnd : List Char → List Char
  | [] => []
  | ['\n'] => []
  | c :: rest => c :: dropLineEnd rest

theorem dropLineEnd_eq : (text : List Char) →
    dropLineEnd text = text ∨ text = dropLineEnd text ++ ['\n']
  | [] => .inl rfl
  | [c] => by
      by_cases lineEnd : c = '\n'
      · exact .inr (by rw [lineEnd]; rfl)
      · exact .inl (by simp [dropLineEnd, lineEnd])
  | c :: d :: rest => by
      have same : dropLineEnd (c :: d :: rest) = c :: dropLineEnd (d :: rest) := by
        simp [dropLineEnd]
      rw [same]
      exact (dropLineEnd_eq (d :: rest)).imp (congrArg (c :: ·)) (congrArg (c :: ·))

/-- The gap at the end of a layout can be cut short. -/
theorem Layout.of_append_lineEnd (layout : Layout tokens (text ++ ['\n'])) :
    Layout tokens text := by
  generalize whole : text ++ ['\n'] = ended at layout
  induction layout generalizing text with
  | done blank =>
      refine .done fun c member => blank c ?_
      rw [← whole]
      exact List.mem_append_left _ member
  | @token gap token tokens rest blank isToken apart _ ih =>
      -- the line end is not in the token, so it is the last character behind it
      have more : rest ≠ [] := by
        rintro rfl
        obtain ⟨c, others, spelled, _⟩ := isToken.starts
        have solid : token.toList ≠ [] := by
          rw [spelled]
          exact List.cons_ne_nil _ _
        have last : token.toList.getLast? = some '\n' := by
          rw [← List.getLast?_append_of_ne_nil gap solid, ← List.append_nil (gap ++ _),
            List.append_assoc, ← whole]
          simp
        exact (isToken.unbroken '\n' (List.mem_of_getLast? last)).1 rfl
      obtain ⟨init, last, split⟩ := (List.eq_nil_or_concat rest).resolve_left more
      rw [List.concat_eq_append] at split
      rw [split, ← List.append_assoc, ← List.append_assoc] at whole
      obtain ⟨same, lineEnd⟩ := List.append_inj' whole rfl
      obtain rfl : '\n' = last := by simpa using lineEnd
      rw [same, List.append_assoc]
      refine .token blank isToken (fun c member continues d head => ?_) (ih split.symm)
      refine apart c member continues d ?_
      rw [split]
      cases init with
      | nil => cases head
      | cons e init => exact head

theorem Layout.dropLineEnd (layout : Layout tokens text) :
    Layout tokens (Grammar.dropLineEnd text) := by
  rcases dropLineEnd_eq text with same | same
  · rwa [same]
  · rw [same] at layout
    exact layout.of_append_lineEnd

theorem Layout.ne_carriageReturn (layout : Layout tokens text) : ∀ c ∈ text, c ≠ '\r' := by
  have gapNe : ∀ {gap : List Char}, (∀ c ∈ gap, isGap c = true) → ∀ c ∈ gap, c ≠ '\r' := by
    rintro gap blank c member rfl
    exact absurd (blank _ member) (by decide)
  induction layout with
  | done blank => exact gapNe blank
  | token blank isToken _ _ ih =>
      intro c member
      rcases List.mem_append.mp member with inGap | member
      · exact gapNe blank c inGap
      rcases List.mem_append.mp member with inToken | inRest
      · exact (isToken.unbroken c inToken).2
      · exact ih c inRest

/-- A character in an indented text: line ends are followed by the columns of the next line. -/
def indented (c : Char) : List Char := if c = '\n' then ['\n', ' ', ' '] else [c]

theorem finishLine_of_ne {reversed : List Char} (plain : ∀ c ∈ reversed, c ≠ '\r') :
    Text.finishLine reversed = reversed.reverse := by
  cases reversed with
  | nil => rfl
  | cons c reversed =>
      have other := plain c List.mem_cons_self
      rw [Text.finishLine]
      rintro _ ⟨rfl⟩
      exact other rfl

/-- The lines of a text without carriage returns, put together again two columns to the right. -/
theorem intercalate_splitLines (chars : List Char) : ∀ (reversed : List Char),
    (∀ c ∈ chars, c ≠ '\r') → (∀ c ∈ reversed, c ≠ '\r') → chars ≠ [] ∨ reversed ≠ [] →
      ("\n".intercalate (((Text.splitLines chars reversed).map String.ofList).map
        ("  " ++ ·))).toList =
          ' ' :: ' ' :: (reversed.reverse ++ (Grammar.dropLineEnd chars).flatMap indented) := by
  induction chars with
  | nil =>
      intro reversed _ _ some
      cases reversed with
      | nil => simp at some
      | cons c reversed => simp [Text.splitLines, Grammar.dropLineEnd]
  | cons c rest ih =>
      intro reversed plain plainReversed _
      have plainRest : ∀ c ∈ rest, c ≠ '\r' :=
        fun c member => plain c (List.mem_cons_of_mem _ member)
      by_cases lineEnd : c = '\n'
      · subst lineEnd
        rw [Text.splitLines, finishLine_of_ne plainReversed]
        cases rest with
        | nil => simp [Text.splitLines, Grammar.dropLineEnd]
        | cons d rest =>
            have later := ih [] plainRest nofun (.inl (List.cons_ne_nil _ _))
            have more : ((Text.splitLines (d :: rest) []).map String.ofList).map ("  " ++ ·)
                ≠ [] := by
              intro none
              rw [none] at later
              cases later
            rw [List.map_cons, List.map_cons, String.intercalate_cons_of_ne_nil more,
              String.toList_append, later]
            simp [Grammar.dropLineEnd, indented]
      · have split : Text.splitLines (c :: rest) reversed =
            Text.splitLines rest (c :: reversed) := by
          rw [Text.splitLines]
          exact lineEnd
        have dropped : Grammar.dropLineEnd (c :: rest) = c :: Grammar.dropLineEnd rest := by
          cases rest <;> simp [Grammar.dropLineEnd, lineEnd]
        have plainMore : ∀ d ∈ c :: reversed, d ≠ '\r' :=
          List.forall_mem_cons.mpr ⟨plain c List.mem_cons_self, plainReversed⟩
        rw [split, ih (c :: reversed) plainRest plainMore (.inr (List.cons_ne_nil _ _)), dropped]
        simp [indented, lineEnd]

theorem LaidOut.indent {text : String} (laidOut : LaidOut tokens text) :
    LaidOut tokens (Text.indent text) := by
  by_cases empty : text.toList = []
  · obtain rfl : text = "" := by simpa using empty
    exact laidOut
  · rw [LaidOut, Text.indent, Text.lines, intercalate_splitLines text.toList []
      laidOut.ne_carriageReturn nofun (.inl empty)]
    refine Layout.gap_append [' ', ' '] (List.all_eq_true.mp rfl) ?_
    exact Layout.flatMap (fun c other => if_neg other) (List.all_eq_true.mp rfl) (by decide)
      (Layout.dropLineEnd laidOut)

end TreeQuery.Grammar
