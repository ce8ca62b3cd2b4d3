import TreeQuery.Grammar.Parse
import TreeQuery.Proofs.Path.Tokens

/-!
# Reading single steps

What the rule of single steps does at the tokens of a step and at tokens that start none, and
what the tokens before and behind a path are like.  A step is told by its first character,
except that a tag may start with the letters of a text test; what follows the tag decides then.
-/

set_option autoImplicit false

namespace TreeQuery

open TreeQuery.Grammar.Parser TreeQuery.Grammar

/-! ## What follows a path -/

/-- Tokens that cannot continue the token of a single step. -/
structure EndsStep (tokens : List String) : Prop where
  noStep : lead tokens ≠ some '.'
  noCall : lead tokens = some '(' → ∃ rest, tokens = "(" :: rest ∧ lead rest ≠ some ')'

/-- Tokens that cannot continue a path. -/
structure EndsPath (tokens : List String) : Prop extends EndsStep tokens where
  noFilter : lead tokens ≠ some '['
  noAxis : lead tokens ≠ some '/'
  noPair : ∀ level, Refuses (do comma; blanks; (pathLevel level).pathSteps) tokens

/-- Tokens that start with a character that no part of a path starts with or goes on with. -/
theorem EndsPath.of_lead {tokens : List String}
    (ends : ∀ c ∈ ['.', '(', '[', '/', ','], lead tokens ≠ some c) : EndsPath tokens where
  noStep := ends '.' (by simp)
  noCall paren := absurd paren (ends '(' (by simp))
  noFilter := ends '[' (by simp)
  noAxis := ends '/' (by simp)
  noPair _ := startsIn_comma.bind.refuses (by simpa using ends ',' (by simp))

theorem EndsStep.of_lead {tokens : List String} (ends : ∀ c ∈ ['.', '('], lead tokens ≠ some c) :
    EndsStep tokens where
  noStep := ends '.' (by simp)
  noCall paren := absurd paren (ends '(' (by simp))

/-- Tokens that can follow a filter. -/
inductive EndsFilter : List String → Prop where
  | closing {token : String} (rest : List String) : token ∈ ["]", ")", "and", "or"] →
      EndsFilter (token :: rest)

theorem EndsFilter.lead_ne {tokens : List String} (ends : EndsFilter tokens) {c : Char}
    (other : c ∉ [']', ')', 'a', 'o']) : lead tokens ≠ some c := by
  obtain ⟨rest, listed⟩ := ends
  simp only [List.mem_cons, List.not_mem_nil, or_false] at listed
  intro same
  apply other
  rcases listed with rfl | rfl | rfl | rfl <;> cases same <;> decide

theorem EndsFilter.endsPath {tokens : List String} (ends : EndsFilter tokens) : EndsPath tokens :=
  .of_lead fun c listed => ends.lead_ne (by
    simp only [List.mem_cons, List.not_mem_nil, or_false] at listed
    rcases listed with rfl | rfl | rfl | rfl | rfl <;> decide)

/-! ## What a path starts with -/

/-- Tokens that start as those of a path do: with a tag or with a sign of a path. -/
inductive OpensPath : List String → Prop where
  | name {name : String} (rest : List String) : isTagName name = true → OpensPath (name :: rest)
  | sign {token : String} {c : Char} {others : List Char} (rest : List String) :
      token.toList = c :: others → c ∈ ['*', '.', '@', '('] → OpensPath (token :: rest)

theorem OpensPath.append {tokens : List String} (opens : OpensPath tokens) (rest : List String) :
    OpensPath (tokens ++ rest) := by
  cases opens with
  | name others isTag => exact .name (others ++ rest) isTag
  | sign others spelled listed => exact .sign (others ++ rest) spelled listed

theorem OpensPath.lead_ne {tokens : List String} (opens : OpensPath tokens) {c : Char}
    (sign : startsName c = false) (other : c ∉ ['*', '.', '@', '(']) : lead tokens ≠ some c := by
  cases opens with
  | name rest isTag => exact lead_name_ne (isName_of_isTagName isTag) sign
  | sign rest spelled listed =>
      rw [lead_cons, spelled]
      rintro ⟨rfl⟩
      exact other listed

theorem OpensPath.refuses_not {tokens : List String} (opens : OpensPath tokens) :
    Refuses (keyword .notKeyword "not") tokens := by
  cases opens with
  | name rest isTag =>
      refine (refuses_word (isName_of_isTagName isTag)
        (List.forall_mem_singleton.mpr (List.all_eq_true.mp (by decide))) fun member => ?_).rule
      obtain rfl := List.mem_singleton.mp member
      exact not_mem_reservedWords isTag (by decide)
  | sign rest spelled listed =>
      refine (startsIn_keyword (c := 'n') rfl).refuses ?_
      rw [lead_cons, spelled]
      simp only [List.mem_cons, List.not_mem_nil, or_false] at listed
      rcases listed with rfl | rfl | rfl | rfl <;> simp

theorem opensPath_enclosedIf {needed : Bool} {tokens : List String} (opens : OpensPath tokens) :
    OpensPath (enclosedIf needed tokens) := by
  cases needed with
  | false => exact opens
  | true => exact .sign _ rfl (by decide)

theorem Path.opensPath : (path : Path) → path.isPrintable = true → OpensPath path.tokens
  | .pair left _, printable => by
      rw [isPrintable, Bool.and_eq_true] at printable
      exact (left.opensPath printable.1).append _
  | .step left _ _, printable => by
      rw [isPrintable, Bool.and_eq_true] at printable
      exact (opensPath_enclosedIf (left.opensPath printable.1)).append _
  | .filtered base _, printable => by
      rw [isPrintable, Bool.and_eq_true] at printable
      exact (opensPath_enclosedIf (base.opensPath printable.1)).append _
  | .tag name, printable => .name [] printable
  | .wildcard, _ | .current, _ | .parent, _ | .parenthesized _, _ => .sign _ rfl (by decide)
  | .text, _ => .name _ (by decide)
  | .attribute name, _ =>
      @OpensPath.sign (attributeToken name) '@' name.toList [] (by simp [attributeToken])
        (by decide)

/-! ## Single steps -/

theorem refuses_textTest {name : String} (named : isName name = true) {tokens : List String}
    (ends : EndsStep tokens) :
    Refuses (do literal "text"; blanks; literal "("; blanks; literal ")"; return Path.text)
      (name :: tokens) := by
  intro text layout
  obtain ⟨rest, same, _, apart, layout⟩ := layout.skip_cons
  have stops := Apart.head_of_name "" named (by simpa using apart)
  rw [same]
  by_cases starts : "text".toList <+: name.toList ++ rest
  · obtain ⟨more, split⟩ := prefix_of_name (List.all_eq_true.mp (by decide)) stops starts
    rw [← split, List.append_assoc]
    refine (reads_literal "text" _).bind_fails ((reads_blanks _).bind_fails ?_)
    cases more with
    | nil =>
        by_cases paren : lead tokens = some '('
        · obtain ⟨others, rfl, closes⟩ := ends.noCall paren
          obtain ⟨last, same, _, _, layout⟩ := layout.skip_cons
          rw [List.nil_append, same]
          refine (reads_literal "(" _).bind_fails ((reads_blanks _).bind_fails ?_)
          exact (((startsIn_literal (c := ')') rfl).refuses (by simpa using closes)).bind _ layout)
        · exact ((startsIn_literal (c := '(') rfl).refuses (by simpa using paren)).bind _ layout
    | cons c more =>
        have letter : continuesName c = true := continuesName_of_mem named c (split ▸ by simp)
        refine (startsIn_literal (c := '(') rfl).bind _ fun d head => ?_
        rw [skip, List.cons_append, List.dropWhile_cons_of_neg
          (by simp [not_isSeparator_of_continuesName letter])] at head
        obtain rfl : c = d := by simpa using head
        rintro member
        obtain rfl := List.mem_singleton.mp member
        revert letter
        decide
  · exact (fails_literal starts).bind

variable {level : Nat} {tokens rest : List String}

/-- A tag is not read where no name starts. -/
theorem refuses_tagStep (sign : ∀ c ∈ lead tokens, startsName c = false) :
    Refuses (do absent reserved; blanks; return Path.tag (← identifier)) tokens := by
  have noWord : Refuses reserved tokens := startsIn_reserved.refuses fun c letter same => by
    have letters : ∀ c ∈ reservedLetters, startsName c = true := List.all_eq_true.mp (by decide)
    exact absurd (sign c same) (by simp [letters c letter])
  exact noWord.absent.andThen_refuses (f := fun _ => do return Path.tag (← identifier))
    (refuses_identifier sign).bind

/-- At tokens that start with no sign of a step, parentheses and a tag are left of the steps. -/
theorem refuses_pathAtom (differs : ∀ c ∈ ['t', '.', '*', '@'], lead tokens ≠ some c)
    (noParentheses : Refuses (enclosed "(" (pathLevel level).path ")") tokens)
    (noTag : Refuses (do absent reserved; blanks; return Path.tag (← identifier)) tokens) :
    Refuses (pathLevel level).pathAtom tokens := by
  refine (Refuses.firstOf fun parser member => ?_).rule
  simp only [List.mem_cons, List.not_mem_nil, or_false] at member
  have apart : ∀ c ∈ ['t', '.', '*', '@'], ∀ d ∈ [c], lead tokens ≠ some d := by
    intro c listed d same
    exact List.mem_singleton.mp same ▸ differs c listed
  rcases member with rfl | rfl | rfl | rfl | rfl | rfl | rfl
  · exact (startsIn_literal rfl).bind.rule.refuses (apart 't' (by simp))
  · exact (startsIn_literal rfl).bind.rule.refuses (apart '.' (by simp))
  · exact (startsIn_literal rfl).bind.rule.refuses (apart '.' (by simp))
  · exact (startsIn_literal rfl).bind.rule.refuses (apart '*' (by simp))
  · exact (startsIn_literal rfl).bind.rule.refuses (apart '@' (by simp))
  · exact noParentheses.bind.rule
  · exact noTag.rule

/-- A reserved word is not a step. -/
theorem refuses_pathAtom_of_reserved {spelling : String} (listed : spelling ∈ reservedWords)
    (rest : List String) : Refuses (pathLevel level).pathAtom (spelling :: rest) := by
  have leads : reservedWords.all (fun word =>
      ['t', '.', '*', '@', '('].all (word.toList.head? != some ·)) = true := by decide
  simp only [List.all_eq_true, bne_iff_ne] at leads
  refine refuses_pathAtom
    (fun c sign => leads spelling listed c (List.mem_append_left ['('] sign)) ?_
    (takes_reserved listed rest).absent.bind
  exact (startsIn_enclosed (c := '(') rfl).refuses
    (by simpa using leads spelling listed '(' (by simp))

theorem refuses_pathAtom_of_parentheses
    (refuses : Refuses (do
      let value ← (pathLevel level).path
      blanks
      literal ")"
      return value) tokens) :
    Refuses (pathLevel level).pathAtom ("(" :: tokens) :=
  refuses_pathAtom (by simp) ((takes_literal "(" tokens).andThen_refuses refuses)
    (refuses_tagStep (by simp; decide))

/-- At tokens that start with no earlier sign, the later alternatives of a step are left. -/
theorem takes_pathAtom {value : Path}
    (noText : Refuses
      (do literal "text"; blanks; literal "("; blanks; literal ")"; return Path.text) tokens)
    (differs : ∀ c ∈ ['.', '*'], lead tokens ≠ some c)
    (takes : Takes (firstOf [
      rule .attributeStep do
        literal "@"
        return Path.attribute (← identifier),
      rule .pathParentheses do
        return Path.parenthesized (← enclosed "(" (pathLevel level).path ")"),
      rule .tagStep do
        absent reserved
        blanks
        return Path.tag (← identifier)]) tokens value rest) :
    Takes (pathLevel level).pathAtom tokens value rest := by
  have noDot : ∀ c ∈ ['.'], lead tokens ≠ some c := by simpa using differs '.' (by simp)
  have noStar : ∀ c ∈ ['*'], lead tokens ≠ some c := by simpa using differs '*' (by simp)
  refine Takes.rule (.firstOf_cons noText.rule ?_)
  refine .firstOf_cons ((startsIn_literal rfl).bind.rule.refuses noDot) ?_
  refine .firstOf_cons ((startsIn_literal rfl).bind.rule.refuses noDot) ?_
  exact .firstOf_cons ((startsIn_literal rfl).bind.rule.refuses noStar) takes

theorem refuses_textTest_of_lead (differs : lead tokens ≠ some 't') :
    Refuses (do literal "text"; blanks; literal "("; blanks; literal ")"; return Path.text)
      tokens :=
  (startsIn_literal (c := 't') rfl).bind.refuses (by simpa using differs)

theorem takes_wildcard : Takes (pathLevel level).pathAtom ("*" :: rest) .wildcard rest := by
  refine Takes.rule (.firstOf_cons (refuses_textTest_of_lead (by simp)).rule ?_)
  refine .firstOf_cons ((startsIn_literal (c := '.') rfl).bind.rule.refuses (by simp)) ?_
  refine .firstOf_cons ((startsIn_literal (c := '.') rfl).bind.rule.refuses (by simp)) ?_
  exact ((takes_literal "*" rest).return (f := fun _ => Path.wildcard)).rule.firstOf

theorem takes_currentStep (ends : EndsStep rest) :
    Takes (pathLevel level).pathAtom ("." :: rest) .current rest := by
  refine Takes.rule (.firstOf_cons (refuses_textTest_of_lead (by simp)).rule ?_)
  refine .firstOf_cons (Refuses.bind ?_).rule ?_
  · exact refuses_literal_pair rfl rfl rfl ends.noStep
  · exact ((takes_literal "." rest).return (f := fun _ => Path.current)).rule.firstOf

theorem takes_parentStep : Takes (pathLevel level).pathAtom (".." :: rest) .parent rest := by
  refine Takes.rule (.firstOf_cons (refuses_textTest_of_lead (by simp)).rule ?_)
  exact ((takes_literal ".." rest).return (f := fun _ => Path.parent)).rule.firstOf

theorem takes_textTest :
    Takes (pathLevel level).pathAtom ("text" :: "(" :: ")" :: rest) .text rest := by
  refine ((takes_literal "text" _).andThen ?_).rule.firstOf.rule
  exact (takes_literal "(" _).andThen
    ((takes_literal ")" rest).return (f := fun _ => Path.text))

theorem takes_attributeStep {name : String} (named : isName name = true) :
    Takes (pathLevel level).pathAtom (attributeToken name :: rest) (.attribute name) rest := by
  refine takes_pathAtom (refuses_textTest_of_lead ?_) ?_ (Takes.rule ?_).firstOf
  · simp [attributeToken]
  · simp [attributeToken]
  · intro text layout
    obtain ⟨last, same, _, apart, layout⟩ := layout.skip_cons
    rw [same, attributeToken, String.toList_append, List.append_assoc]
    exact ⟨last, layout, (reads_literal "@" _).bind
      ((reads_identifier named (apart.head_of_name _ named)).bind .pure)⟩

theorem takes_pathParentheses {value : Path}
    (takes : Takes (pathLevel level).path tokens value (")" :: rest)) :
    Takes (pathLevel level).pathAtom ("(" :: tokens) (.parenthesized value) rest := by
  refine takes_pathAtom (refuses_textTest_of_lead (by simp)) (by simp) (.firstOf_cons ?_ ?_)
  · exact (startsIn_literal (c := '@') rfl).bind.rule.refuses (by simp)
  · exact (takes.enclosed.return (f := Path.parenthesized)).rule.firstOf

theorem takes_tagStep {name : String} (isTag : isTagName name = true) (ends : EndsStep rest) :
    Takes (pathLevel level).pathAtom (name :: rest) (.tag name) rest := by
  have named := isName_of_isTagName isTag
  have differs : ∀ c ∈ ['.', '*', '@', '('], lead (name :: rest) ≠ some c := by
    intro c sign
    have signs : ['.', '*', '@', '('].all (!startsName ·) = true := by decide
    simp only [List.all_eq_true, Bool.not_eq_true'] at signs
    exact lead_name_ne named (signs c sign)
  refine takes_pathAtom (refuses_textTest named ends)
    (fun c sign => differs c (List.mem_append_left ['@', '('] sign)) ?_
  refine .firstOf_cons ((startsIn_literal (c := '@') rfl).bind.rule.refuses ?_) ?_
  · simpa using differs '@' (by simp)
  refine .firstOf_cons ((startsIn_enclosed (c := '(') rfl).bind.rule.refuses ?_) ?_
  · simpa using differs '(' (by simp)
  exact ((refuses_reserved isTag rest).absent.andThen
    (f := fun _ => do return Path.tag (← identifier))
    ((takes_identifier named rest).return (f := Path.tag))).rule.firstOf

end TreeQuery
