import TreeQuery.Proofs.Grammar.Layout

/-!
# Reading single tokens

What the parsers of names, strings, keywords and operators do at the front of a token
sequence.  A parser of signs is told apart from the others by the characters that its matches
can start with (`StartsIn`), a keyword from a name by the whole of the name: a name goes on as
far as it can, so a keyword is never read off the front of a longer name.
-/

set_option autoImplicit false

namespace TreeQuery.Grammar

open TreeQuery.Grammar.Parser

/-! ## Names and strings -/

/-- Whether a text is a name. -/
def isName (text : String) : Bool :=
  match text.toList with
  | [] => false
  | first :: rest => startsName first && rest.all continuesName

/-- Whether a name can be that of a tag step. -/
def isTagName (text : String) : Bool := isName text && !reservedWords.contains text

/-- Whether a text can stand between double quotes. -/
def isQuotable (text : String) : Bool := text.toList.all insideString

/-- The token of a reference to a variable. -/
def referenceToken (name : String) : String := "$" ++ name

/-- The token of an attribute step. -/
def attributeToken (name : String) : String := "@" ++ name

/-- The token of a string. -/
def stringToken (value : String) : String := "\"" ++ value ++ "\""

theorem isName_of_isTagName {name : String} (isTag : isTagName name = true) :
    isName name = true := by
  rw [isTagName, Bool.and_eq_true] at isTag
  exact isTag.1

theorem not_mem_reservedWords {name : String} (isTag : isTagName name = true) :
    name ∉ reservedWords := by
  simpa [isTagName] using (Bool.and_eq_true_iff.mp isTag).2

theorem isName_iff {name : String} : isName name = true ↔
    ∃ first rest, name.toList = first :: rest ∧ startsName first = true ∧
      ∀ c ∈ rest, continuesName c = true := by
  rw [isName]
  cases name.toList with
  | nil => simp
  | cons first rest => simp

theorem continuesName_of_startsName {c : Char} (starts : startsName c = true) :
    continuesName c = true := by
  simp [continuesName, starts]

theorem continuesName_of_mem {name : String} (named : isName name = true) :
    ∀ c ∈ name.toList, continuesName c = true := by
  obtain ⟨first, rest, spelled, starts, continues⟩ := isName_iff.mp named
  rw [spelled]
  exact List.forall_mem_cons.mpr ⟨continuesName_of_startsName starts, continues⟩

theorem not_mem_name {name : String} (named : isName name = true) {c : Char}
    (sign : continuesName c = false) : c ∉ name.toList := by
  intro member
  rw [continuesName_of_mem named c member] at sign
  cases sign

/-- A name starts with none of the characters that start other tokens. -/
theorem lead_name_ne {name : String} (named : isName name = true) {tokens : List String} {c : Char}
    (sign : startsName c = false) : lead (name :: tokens) ≠ some c := by
  obtain ⟨first, rest, spelled, starts, _⟩ := isName_iff.mp named
  rw [lead_cons, spelled, List.head?_cons]
  rintro ⟨rfl⟩
  rw [sign] at starts
  cases starts

theorem isToken_name {name : String} (named : isName name = true) : IsToken name := by
  obtain ⟨first, rest, spelled, starts, _⟩ := isName_iff.mp named
  refine ⟨⟨first, rest, spelled, ?_⟩, fun c member => ?_⟩
  · exact not_isSeparator_of_continuesName (continuesName_of_startsName starts)
  · constructor <;> rintro rfl <;> exact not_mem_name named (by decide) member

theorem isToken_referenceToken {name : String} (named : isName name = true) :
    IsToken (referenceToken name) := by
  refine ⟨⟨'$', name.toList, by simp [referenceToken], rfl⟩, fun c member => ?_⟩
  rw [referenceToken, String.toList_append, List.mem_append] at member
  rcases member with sign | member
  · obtain rfl : c = '$' := by simpa using sign
    decide
  · exact (isToken_name named).unbroken c member

theorem isToken_attributeToken {name : String} (named : isName name = true) :
    IsToken (attributeToken name) := by
  refine ⟨⟨'@', name.toList, by simp [attributeToken], rfl⟩, fun c member => ?_⟩
  rw [attributeToken, String.toList_append, List.mem_append] at member
  rcases member with sign | member
  · obtain rfl : c = '@' := by simpa using sign
    decide
  · exact (isToken_name named).unbroken c member

theorem isToken_stringToken {value : String} (quotable : isQuotable value = true) :
    IsToken (stringToken value) := by
  refine ⟨⟨'\x22', (value ++ "\"").toList, by simp [stringToken], rfl⟩, fun c member => ?_⟩
  have cases : c = '\x22' ∨ c ∈ value.toList := by
    simp only [stringToken, String.toList_append, List.mem_append] at member
    rcases member with (sign | member) | sign
    · exact .inl (by simpa using sign)
    · exact .inr member
    · exact .inl (by simpa using sign)
  rcases cases with rfl | member
  · decide
  · have inside := List.all_eq_true.mp quotable c member
    simp only [insideString, Bool.and_eq_true, decide_eq_true_eq] at inside
    exact ⟨inside.1.2, inside.2⟩

/-! ## First characters -/

section

variable {α β : Type} {parser other : Parser α} {f : α → Parser β} {firsts : List Char}
variable {tokens : List String}

/-- Every text that a parser matches starts with one of some characters. -/
def StartsIn (parser : Parser α) (firsts : List Char) : Prop :=
  ∀ text : List Char, (∀ c ∈ text.head?, c ∉ firsts) → parser.Fails text

theorem StartsIn.refuses (starts : StartsIn parser firsts)
    (differs : ∀ c ∈ firsts, lead tokens ≠ some c) : Refuses parser tokens := by
  intro text layout
  refine starts _ fun c head member => differs c member ?_
  rw [← layout.head?_skip]
  exact head

theorem StartsIn.bind (starts : StartsIn parser firsts) : StartsIn (parser >>= f) firsts :=
  fun text differs => (starts text differs).bind

theorem StartsIn.rule {name : Rule} (starts : StartsIn parser firsts) :
    StartsIn (Parser.rule name parser) firsts :=
  fun text differs => (starts text differs).rule

theorem StartsIn.mono {more : List Char} (starts : StartsIn parser firsts)
    (among : ∀ c ∈ firsts, c ∈ more) : StartsIn parser more :=
  fun text differs => starts text fun c head member => differs c head (among c member)

theorem StartsIn.firstOf {parsers : List (Parser α)}
    (start : ∀ parser ∈ parsers, StartsIn parser firsts) :
    StartsIn (Parser.firstOf parsers) firsts :=
  fun text differs => .firstOf fun parser member => start parser member text differs

theorem startsIn_literal {sign : String} {c : Char} {rest : List Char}
    (spelled : sign.toList = c :: rest) : StartsIn (literal sign) [c] := by
  intro text differs
  refine fails_literal ?_
  rintro ⟨last, rfl⟩
  rw [spelled] at differs
  exact differs c rfl List.mem_cons_self

theorem startsIn_word {spellings : List String} (spelled : ∀ spelling ∈ spellings,
    ∃ c ∈ firsts, ∃ rest, spelling.toList = c :: rest) : StartsIn (word spellings) firsts := by
  refine StartsIn.bind (StartsIn.firstOf fun parser member => ?_)
  obtain ⟨spelling, listed, rfl⟩ := List.mem_map.mp member
  obtain ⟨c, among, rest, same⟩ := spelled spelling listed
  exact (startsIn_literal same).mono (by simpa using among)

theorem startsIn_keyword {name : Rule} {spelling : String} {c : Char} {rest : List Char}
    (spelled : spelling.toList = c :: rest) : StartsIn (keyword name spelling) [c] :=
  (startsIn_word (by simpa using ⟨rest, spelled⟩)).rule

end

/-! ## Signs -/

section

variable {tokens : List String}

theorem takes_literal (sign : String) (tokens : List String) :
    Takes (literal sign) (sign :: tokens) () tokens := by
  intro text layout
  obtain ⟨rest, same, _, _, layout⟩ := layout.skip_cons
  rw [same]
  exact ⟨rest, layout, reads_literal sign rest⟩

/-- A sign of two characters is not read off a token with the first of them. -/
theorem refuses_literal_pair {sign token : String} {c d : Char} (spelled : sign.toList = [c, d])
    (single : token.toList = [c]) (solid : isGap d = false) (differs : lead tokens ≠ some d) :
    Refuses (literal sign) (token :: tokens) := by
  intro text layout
  obtain ⟨rest, same, _, _, layout⟩ := layout.skip_cons
  refine fails_literal ?_
  rw [same, spelled, single]
  rintro ⟨last, split⟩
  have head : d ∈ rest.head? := by
    obtain rfl : d :: last = rest := by simpa using split
    rfl
  rcases layout.isGap_or_lead head with gap | starts
  · rw [solid] at gap
    cases gap
  · exact differs starts

variable {α : Type} {parser : Parser α} {value : α}

theorem Takes.enclosed {opening closing : String} {between remaining : List String}
    (takes : Takes parser between value (closing :: remaining)) :
    Takes (enclosed opening parser closing) (opening :: between) value remaining :=
  (takes_literal opening between).andThen (f := fun _ => do
      let value ← parser
      blanks
      literal closing
      return value)
    (takes.andThen (f := fun value => do
      literal closing
      return value)
      ((takes_literal closing remaining).return (f := fun _ => value)))

theorem startsIn_enclosed {opening closing : String} {c : Char} {rest : List Char}
    (spelled : opening.toList = c :: rest) : StartsIn (enclosed opening parser closing) [c] :=
  (startsIn_literal spelled).bind

end

/-! ## Names -/

section

variable {tokens : List String} {name : String}

/-- In a layout, the name that a token ends in stops where the token does. -/
theorem Apart.head_of_name (sign : String) {name : String} {rest : List Char}
    (named : isName name = true)
    (apart : Apart (sign ++ name).toList rest) : ∀ c ∈ rest.head?, continuesName c = false := by
  obtain ⟨first, others, spelled, starts, continues⟩ := isName_iff.mp named
  have solid : name.toList ≠ [] := by
    rw [spelled]
    exact List.cons_ne_nil _ _
  refine apart (name.toList.getLast solid) ?_
    (continuesName_of_mem named _ (List.getLast_mem solid))
  rw [String.toList_append, List.getLast?_append_of_ne_nil _ solid,
    List.getLast?_eq_some_getLast solid]
  rfl

theorem reads_identifier (named : isName name = true) {rest : List Char}
    (stops : ∀ c ∈ rest.head?, continuesName c = false) :
    identifier.Reads (name.toList ++ rest) name rest := by
  obtain ⟨first, others, spelled, starts, continues⟩ := isName_iff.mp named
  have run := reads_charactersWhile continuesName (others ++ rest)
  have stop : rest.takeWhile continuesName = [] ∧ rest.dropWhile continuesName = rest := by
    cases rest with
    | nil => exact ⟨rfl, rfl⟩
    | cons c rest => simp [stops c rfl]
  rw [List.takeWhile_append_of_pos continues, List.dropWhile_append_of_pos continues, stop.1,
    stop.2,
    List.append_nil] at run
  have whole : name = String.ofList (first :: others) := by
    rw [← spelled, String.ofList_toList]
  rw [spelled, List.cons_append]
  refine Reads.rule ((reads_character starts).bind (run.bind ?_))
  rw [← whole]
  exact .pure

theorem takes_identifier (named : isName name = true) (tokens : List String) :
    Takes identifier (name :: tokens) name tokens := by
  intro text layout
  obtain ⟨rest, same, _, apart, layout⟩ := layout.skip_cons
  rw [same]
  refine ⟨rest, layout, reads_identifier named ?_⟩
  exact Apart.head_of_name "" named (by simpa using apart)

theorem takes_reference (named : isName name = true) (tokens : List String) :
    Takes reference (referenceToken name :: tokens) name tokens := by
  intro text layout
  obtain ⟨rest, same, _, apart, layout⟩ := layout.skip_cons
  rw [same, referenceToken, String.toList_append, List.append_assoc]
  exact ⟨rest, layout,
    ((reads_literal "$" _).bind (reads_identifier named (apart.head_of_name _ named))).rule⟩

theorem startsIn_reference : StartsIn reference ['$'] :=
  (startsIn_literal rfl).bind.rule

theorem refuses_identifier (differs : ∀ c ∈ lead tokens, startsName c = false) :
    Refuses identifier tokens := by
  intro text layout
  refine Fails.rule (fails_character ?_).bind
  rw [layout.head?_skip]
  exact differs

theorem takes_stringLiteral {value : String} (quotable : isQuotable value = true)
    (tokens : List String) :
    Takes stringLiteral (stringToken value :: tokens) value tokens := by
  intro text layout
  obtain ⟨rest, same, _, _, layout⟩ := layout.skip_cons
  have run := reads_charactersWhile insideString (value.toList ++ "\"".toList ++ rest)
  have inside : ∀ c ∈ value.toList, insideString c = true := List.all_eq_true.mp quotable
  rw [List.append_assoc, List.takeWhile_append_of_pos inside,
    List.dropWhile_append_of_pos inside] at run
  have closes : (("\"".toList ++ rest).takeWhile insideString = []) ∧
      ("\"".toList ++ rest).dropWhile insideString = "\"".toList ++ rest := by
    simp [insideString]
  rw [closes.1, closes.2, List.append_nil] at run
  refine ⟨rest, layout, ?_⟩
  rw [same, stringToken, String.toList_append, String.toList_append, List.append_assoc,
    List.append_assoc]
  refine Reads.rule ((reads_literal "\"" _).bind (run.rule.bind ((reads_literal "\"" _).bind ?_)))
  rw [String.ofList_toList]
  exact .pure

theorem startsIn_stringLiteral : StartsIn stringLiteral ['\x22'] :=
  (startsIn_literal rfl).bind.rule

end

/-! ## Words -/

section

variable {tokens : List String} {name spelling : String}

/-- A word at the front of a layout whose first token is a name is at the front of the name. -/
theorem prefix_of_name (letters : ∀ c ∈ spelling.toList, continuesName c = true) {rest : List Char}
    (stops : ∀ c ∈ rest.head?, continuesName c = false)
    (starts : spelling.toList <+: name.toList ++ rest) : spelling.toList <+: name.toList := by
  rcases List.prefix_or_prefix_of_prefix starts (List.prefix_append name.toList rest) with
    short | long
  · exact short
  · obtain ⟨more, split⟩ := long
    cases more with
    | nil =>
        rw [List.append_nil] at split
        exact split ▸ List.prefix_refl _
    | cons c more =>
        rw [← split, List.prefix_append_right_inj] at starts
        obtain ⟨last, rfl⟩ := starts
        have letter := letters c (split ▸ by simp)
        rw [stops c rfl] at letter
        cases letter

/-- A list of words does not match a name that is none of them. -/
theorem refuses_word {spellings : List String} (named : isName name = true)
    (letters : ∀ spelling ∈ spellings, ∀ c ∈ spelling.toList, continuesName c = true)
    (other : name ∉ spellings) : Refuses (word spellings) (name :: tokens) := by
  intro text layout
  obtain ⟨rest, same, _, apart, layout⟩ := layout.skip_cons
  have stops := Apart.head_of_name "" named (by simpa using apart)
  rw [same]
  -- whichever spelling is read first, a character of the name follows it
  induction spellings with
  | nil => exact (Fails.firstOf fun _ member => absurd member List.not_mem_nil).bind
  | cons spelling others ih =>
      have ih := ih (fun spelling member => letters spelling (List.mem_cons_of_mem _ member))
        (fun member => other (List.mem_cons_of_mem _ member))
      have letters := letters spelling List.mem_cons_self
      by_cases starts : spelling.toList <+: name.toList ++ rest
      · obtain ⟨more, split⟩ := prefix_of_name letters stops starts
        cases more with
        | nil =>
            rw [List.append_nil, String.toList_inj] at split
            exact absurd (split ▸ List.mem_cons_self) other
        | cons c more =>
            have letter : continuesName c = true :=
              continuesName_of_mem named c (split ▸ by simp)
            rw [← split, List.append_assoc]
            exact Reads.bind_fails (.orElse_left (reads_literal spelling _))
              (reads_character letter).absent
      · intro negated offset clash attempts
        obtain ⟨tried, run⟩ := fails_literal starts negated offset clash attempts
        obtain ⟨triedLater, runLater⟩ := ih negated offset clash tried
        refine ⟨triedLater, ?_⟩
        rw [← runLater]
        show andThen (orElse (literal spelling) _) _ negated _ attempts =
          andThen _ _ negated _ tried
        rw [andThen, andThen, orElse, run]

/-- A list of words matches a name among them if no earlier word is at the front of it. -/
theorem reads_word {spellings earlier later : List String}
    (split : spellings = earlier ++ name :: later)
    (letters : ∀ spelling ∈ earlier, ∀ c ∈ spelling.toList, continuesName c = true)
    (apart : ∀ spelling ∈ earlier, ¬ spelling.toList <+: name.toList) {rest : List Char}
    (stops : ∀ c ∈ rest.head?, continuesName c = false) :
    (word spellings).Reads (name.toList ++ rest) () rest := by
  rw [split]
  suffices chosen : (firstOf ((earlier ++ name :: later).map literal)).Reads (name.toList ++ rest)
      () rest from chosen.bind (fails_character stops).absent
  clear split
  induction earlier with
  | nil => exact .orElse_left (reads_literal name rest)
  | cons spelling earlier ih =>
      refine .orElse_right (fails_literal fun starts => ?_)
        (ih (fun spelling member => letters spelling (List.mem_cons_of_mem _ member))
          (fun spelling member => apart spelling (List.mem_cons_of_mem _ member)))
      exact apart spelling List.mem_cons_self
        (prefix_of_name (letters spelling List.mem_cons_self) stops starts)

theorem takes_word (earlier : List String) {spellings later : List String}
    (named : isName name = true)
    (split : spellings = earlier ++ name :: later)
    (letters : ∀ spelling ∈ earlier, ∀ c ∈ spelling.toList, continuesName c = true)
    (apart : ∀ spelling ∈ earlier, ¬ spelling.toList <+: name.toList) (tokens : List String) :
    Takes (word spellings) (name :: tokens) () tokens := by
  intro text layout
  obtain ⟨rest, same, _, ends, layout⟩ := layout.skip_cons
  rw [same]
  refine ⟨rest, layout, reads_word split letters apart ?_⟩
  exact Apart.head_of_name "" named (by simpa using ends)

theorem takes_keyword {rule : Rule} (named : isName spelling = true) (tokens : List String) :
    Takes (keyword rule spelling) (spelling :: tokens) () tokens :=
  (takes_word [] named rfl nofun nofun tokens).rule

theorem takes_docKeyword (tokens : List String) : Takes docKeyword ("doc" :: tokens) () tokens :=
  (takes_word ["document"] (by decide) rfl
    (List.forall_mem_singleton.mpr (List.all_eq_true.mp (by decide))) (by decide) tokens).rule

theorem letters_of_reservedWord : ∀ spelling ∈ reservedWords, ∀ c ∈ spelling.toList,
    continuesName c = true := by
  have letters : reservedWords.all (·.toList.all continuesName) = true := by decide
  simpa only [List.all_eq_true] using letters

theorem isName_of_reservedWord : ∀ spelling ∈ reservedWords, isName spelling = true := by
  decide

/-- No reserved word is at the front of one that is listed later. -/
theorem pairwise_reservedWords :
    reservedWords.Pairwise fun first second => ¬ first.toList <+: second.toList := by
  decide

theorem reads_reserved {spelling : String} (listed : spelling ∈ reservedWords) {rest : List Char}
    (stops : ∀ c ∈ rest.head?, continuesName c = false) :
    reserved.Reads (spelling.toList ++ rest) () rest := by
  obtain ⟨earlier, later, split⟩ := List.append_of_mem listed
  have apart := pairwise_reservedWords
  rw [split, List.pairwise_append] at apart
  refine (reads_word split (fun word member => ?_)
    (fun word member => apart.2.2 word member spelling List.mem_cons_self) stops).rule
  exact letters_of_reservedWord word (split ▸ List.mem_append_left _ member)

theorem takes_reserved {spelling : String} (listed : spelling ∈ reservedWords)
    (tokens : List String) : Takes reserved (spelling :: tokens) () tokens := by
  intro text layout
  obtain ⟨rest, same, _, ends, layout⟩ := layout.skip_cons
  rw [same]
  refine ⟨rest, layout, reads_reserved listed ?_⟩
  exact Apart.head_of_name "" (isName_of_reservedWord spelling listed)
    (by simpa using ends)

/-- The first letters of the reserved words. -/
def reservedLetters : List Char := ['d', 'f', 'i', 'l', 'w', 'r', 'j', 's', 'e', 'a', 'n', 'o']

theorem startsIn_reserved : StartsIn reserved reservedLetters := by
  refine (startsIn_word fun spelling listed => ?_).rule
  have letters : reservedWords.all (fun word =>
      reservedLetters.any (word.toList.head? == some ·)) = true := by decide
  simp only [List.all_eq_true, List.any_eq_true, beq_iff_eq] at letters
  obtain ⟨c, letter, first⟩ := letters spelling listed
  exact ⟨c, letter, List.head?_eq_some_iff.mp first⟩

theorem refuses_reserved (isTag : isTagName name = true) (tokens : List String) :
    Refuses reserved (name :: tokens) :=
  (refuses_word (isName_of_isTagName isTag) letters_of_reservedWord
    (not_mem_reservedWords isTag)).rule

end

/-! ## Operators -/

section

variable {α : Type} {tokens : List String}

theorem takes_comma (tokens : List String) : Takes comma ("," :: tokens) () tokens :=
  takes_literal "," tokens

theorem startsIn_comma : StartsIn comma [','] := startsIn_literal rfl

theorem startsIn_axis : StartsIn axis ['/'] := by
  refine .firstOf fun parser member => ?_
  simp only [List.mem_cons, List.not_mem_nil, or_false] at member
  rcases member with rfl | rfl <;> exact (startsIn_literal rfl).bind.rule

theorem takes_axis (sign : Axis) (differs : lead tokens ≠ some '/') :
    Takes axis (sign.separator :: tokens) sign tokens := by
  cases sign with
  | descendantOrSelf =>
      exact ((takes_literal "//" tokens).return (f := fun _ => Axis.descendantOrSelf)).rule.firstOf
  | child =>
      refine .firstOf_cons (Refuses.bind ?_).rule ?_
      · exact refuses_literal_pair rfl rfl rfl differs
      · exact ((takes_literal "/" tokens).return (f := fun _ => Axis.child)).rule.firstOf

theorem startsIn_valueOperator : StartsIn valueOperator ['=', 'e'] := by
  refine (StartsIn.firstOf fun parser member => ?_).rule
  simp only [List.mem_cons, List.not_mem_nil, or_false] at member
  rcases member with rfl | rfl
  · exact (startsIn_literal (c := '=') rfl).mono (by simp)
  · exact (startsIn_keyword (c := 'e') rfl).mono (by simp)

theorem takes_valueOperator (tokens : List String) :
    Takes valueOperator ("=" :: tokens) () tokens :=
  (takes_literal "=" tokens).firstOf.rule

/-- Behind the first character of the sign for identity no string follows. -/
theorem refuses_value_of_identity {next : Parser α} (starts : StartsIn next ['\x22']) :
    Refuses (do valueOperator; blanks; next) ("==" :: tokens) := by
  intro text layout
  obtain ⟨rest, same, _, _, _⟩ := layout.skip_cons
  rw [same]
  have equals : valueOperator.Reads ('=' :: '=' :: rest) () ('=' :: rest) :=
    (Reads.orElse_left (reads_literal "=" _)).rule
  exact equals.bind_fails ((reads_blanks _).bind_fails (starts _ (by simp [skip, isSeparator])))

theorem startsIn_comparison : StartsIn comparison ['=', 'i', 'e'] := by
  refine .firstOf fun parser member => ?_
  simp only [List.mem_cons, List.not_mem_nil, or_false] at member
  rcases member with rfl | rfl
  · refine (StartsIn.bind (.firstOf fun parser member => ?_)).rule
    simp only [List.mem_cons, List.not_mem_nil, or_false] at member
    rcases member with rfl | rfl
    · exact (startsIn_literal (c := '=') rfl).mono (by simp)
    · exact (startsIn_keyword (c := 'i') rfl).mono (by simp)
  · exact startsIn_valueOperator.bind.mono (by simp)

theorem takes_comparison_identity (tokens : List String) :
    Takes comparison ("==" :: tokens) .identity tokens :=
  ((takes_literal "==" tokens).firstOf.return (f := fun _ => Comparison.identity)).rule.firstOf

theorem takes_comparison_value (differs : lead tokens ≠ some '=') :
    Takes comparison ("=" :: tokens) .value tokens := by
  refine .firstOf_cons (Refuses.bind (.firstOf fun parser member => ?_)).rule ?_
  · simp only [List.mem_cons, List.not_mem_nil, or_false] at member
    rcases member with rfl | rfl
    · exact refuses_literal_pair rfl rfl rfl differs
    · exact (startsIn_keyword (c := 'i') rfl).refuses (by simp)
  · exact ((takes_valueOperator tokens).return (f := fun _ => Comparison.value)).firstOf

end

end TreeQuery.Grammar
