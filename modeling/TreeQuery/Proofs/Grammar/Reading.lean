import Mathlib.Data.List.Basic
import TreeQuery.Grammar.Parser

/-!
# What parsers read

A parser keeps attempts and clashes beside its cursor, so that a diagnostic can be made of
them.  What it reads does not depend on them.  `Parser.Reads` says that a parser reads a value
from a text and leaves a rest, and `Parser.Fails` that it does not match a text, in both
cases whatever was attempted and noted before and whether or not matching is what must not
happen.  There is one lemma for each way of putting parsers together and each of its outcomes.

A parser that notes no clashes either reads or fails at every text (`Parser.Decides`); for such
a parser, what it does once it does always.
-/

set_option autoImplicit false

namespace TreeQuery.Grammar.Parser

variable {α β : Type} {parser other : Parser α} {f : α → Parser β}
variable {text rest last : List Char} {value : α} {result : β}

/-- A parser reads a value from a text and leaves the rest of it. -/
def Reads (parser : Parser α) (text : List Char) (value : α) (rest : List Char) : Prop :=
  ∀ (negated : Bool) (offset : Nat) (clash : Option TagClash) (attempts : Attempts),
    ∃ (later : Nat) (tried : Attempts),
      parser negated ⟨offset, text, clash⟩ attempts = .matched value ⟨later, rest, clash⟩ tried

/-- A parser does not match a text. -/
def Fails (parser : Parser α) (text : List Char) : Prop :=
  ∀ (negated : Bool) (offset : Nat) (clash : Option TagClash) (attempts : Attempts),
    ∃ tried : Attempts, parser negated ⟨offset, text, clash⟩ attempts = .failed tried

/-! ## Sequences -/

theorem Reads.pure : (Pure.pure value : Parser α).Reads text value text := by
  intro _ offset _ attempts
  exact ⟨offset, attempts, rfl⟩

theorem Reads.bind (first : parser.Reads text value rest)
    (second : (f value).Reads rest result last) : (parser >>= f).Reads text result last := by
  intro negated offset clash attempts
  obtain ⟨between, tried, run⟩ := first negated offset clash attempts
  obtain ⟨later, triedLater, runLater⟩ := second negated between clash tried
  refine ⟨later, triedLater, ?_⟩
  show andThen parser f negated _ attempts = _
  rw [andThen, run]
  exact runLater

theorem Fails.bind (fails : parser.Fails text) : (parser >>= f).Fails text := by
  intro negated offset clash attempts
  obtain ⟨tried, run⟩ := fails negated offset clash attempts
  refine ⟨tried, ?_⟩
  show andThen parser f negated _ attempts = _
  rw [andThen, run]

theorem Reads.bind_fails (first : parser.Reads text value rest) (fails : (f value).Fails rest) :
    (parser >>= f).Fails text := by
  intro negated offset clash attempts
  obtain ⟨between, tried, run⟩ := first negated offset clash attempts
  obtain ⟨triedLater, runLater⟩ := fails negated between clash tried
  refine ⟨triedLater, ?_⟩
  show andThen parser f negated _ attempts = _
  rw [andThen, run]
  exact runLater

/-! ## Choices -/

theorem Reads.orElse_left (reads : parser.Reads text value rest) :
    (orElse parser other).Reads text value rest := by
  intro negated offset clash attempts
  obtain ⟨later, tried, run⟩ := reads negated offset clash attempts
  refine ⟨later, tried, ?_⟩
  rw [orElse, run]

theorem Reads.orElse_right (fails : parser.Fails text) (reads : other.Reads text value rest) :
    (orElse parser other).Reads text value rest := by
  intro negated offset clash attempts
  obtain ⟨tried, run⟩ := fails negated offset clash attempts
  obtain ⟨later, triedLater, runLater⟩ := reads negated offset clash tried
  refine ⟨later, triedLater, ?_⟩
  rw [orElse, run]
  exact runLater

theorem Fails.orElse (fails : parser.Fails text) (also : other.Fails text) :
    (orElse parser other).Fails text := by
  intro negated offset clash attempts
  obtain ⟨tried, run⟩ := fails negated offset clash attempts
  obtain ⟨triedLater, runLater⟩ := also negated offset clash tried
  refine ⟨triedLater, ?_⟩
  rw [Parser.orElse, run]
  exact runLater

theorem fails_fail (text : List Char) : (fail : Parser α).Fails text :=
  fun _ _ _ attempts => ⟨attempts, rfl⟩

theorem Fails.firstOf {parsers : List (Parser α)} (fail : ∀ parser ∈ parsers, parser.Fails text) :
    (firstOf parsers).Fails text := by
  induction parsers with
  | nil => exact fails_fail text
  | cons parser others ih =>
      exact (fail parser List.mem_cons_self).orElse
        (ih fun other member => fail other (List.mem_cons_of_mem _ member))

theorem Reads.optional (reads : parser.Reads text value rest) :
    (optional parser).Reads text (some value) rest :=
  .orElse_left (reads.bind .pure)

theorem Fails.optional (fails : parser.Fails text) : (optional parser).Reads text none text :=
  .orElse_right fails.bind .pure

theorem Fails.absent (fails : parser.Fails text) : (absent parser).Reads text () text := by
  intro negated offset clash attempts
  obtain ⟨tried, run⟩ := fails (!negated) offset clash attempts
  refine ⟨offset, tried, ?_⟩
  rw [Parser.absent, run]

theorem Reads.absent (reads : parser.Reads text value rest) : (absent parser).Fails text := by
  intro negated offset clash attempts
  obtain ⟨later, tried, run⟩ := reads (!negated) offset clash attempts
  refine ⟨tried, ?_⟩
  rw [Parser.absent, run]

theorem Reads.rule {name : Rule} (reads : parser.Reads text value rest) :
    (rule name parser).Reads text value rest := by
  intro negated offset clash attempts
  obtain ⟨later, tried, run⟩ := reads negated offset clash attempts
  simp only [Parser.rule, run]
  exact ⟨later, _, rfl⟩

theorem Fails.rule {name : Rule} (fails : parser.Fails text) : (rule name parser).Fails text := by
  intro negated offset clash attempts
  obtain ⟨tried, run⟩ := fails negated offset clash attempts
  simp only [Parser.rule, run]
  exact ⟨_, rfl⟩

/-! ## Characters -/

theorem reads_character {member : Char → Bool} {c : Char} (holds : member c = true) :
    (character member).Reads (c :: rest) c rest := by
  intro _ offset clash attempts
  refine ⟨offset + 1, attempts, ?_⟩
  simp [character, holds]

theorem fails_character {member : Char → Bool} (none : ∀ c ∈ text.head?, member c = false) :
    (character member).Fails text := by
  intro _ _ _ attempts
  refine ⟨attempts, ?_⟩
  cases text with
  | nil => rfl
  | cons c rest => simp [character, none c rfl]

theorem reads_charactersWhile (member : Char → Bool) (text : List Char) :
    (charactersWhile member).Reads text (text.takeWhile member) (text.dropWhile member) := by
  intro _ offset clash attempts
  exact ⟨offset + (text.takeWhile member).length, attempts, rfl⟩

theorem reads_literal (sign : String) (rest : List Char) :
    (literal sign).Reads (sign.toList ++ rest) () rest := by
  intro _ offset clash attempts
  refine ⟨offset + sign.length, attempts, ?_⟩
  simp only [literal]
  rw [List.isPrefixOf?_eq_some_iff_append_eq.mpr rfl]

theorem fails_literal {sign : String} (differs : ¬ sign.toList <+: text) :
    (literal sign).Fails text := by
  intro _ _ _ attempts
  refine ⟨attempts, ?_⟩
  have absent : sign.toList.isPrefixOf? text = none := by
    rw [Option.eq_none_iff_forall_ne_some]
    intro rest found
    exact differs ⟨rest, List.isPrefixOf?_eq_some_iff_append_eq.mp found⟩
  simp only [literal]
  rw [absent]

/-- A text without the separators it starts with. -/
def skip (text : List Char) : List Char :=
  text.dropWhile isSeparator

theorem reads_blanks (text : List Char) : blanks.Reads text () (skip text) :=
  (reads_charactersWhile isSeparator text).bind .pure

theorem reads_endOfInput : endOfInput.Reads [] () [] := by
  refine Reads.rule ?_
  intro _ offset _ attempts
  exact ⟨offset, attempts, rfl⟩

theorem reads_noteTags (name : String) (text : List Char) :
    (noteTags name name).Reads text () text := by
  intro _ offset clash attempts
  refine ⟨offset, attempts, ?_⟩
  cases clash <;> simp [noteTags]

/-! ## Repetitions -/

/-- Values read one after the other, with blanks in front of each, until no further one can
be read. -/
inductive ReadsAll (parser : Parser α) : List Char → List α → List Char → Prop where
  | stop {text : List Char} : parser.Fails (skip text) → ReadsAll parser text [] text
  | more {text rest last : List Char} {value : α} {values : List α} :
      parser.Reads (skip text) value rest → ReadsAll parser rest values last →
        ReadsAll parser text (value :: values) last

theorem ReadsAll.repeated {values : List α} (reads : ReadsAll parser text values rest) {limit : Nat}
    (within : values.length ≤ limit) :
    (repeated (do blanks; parser) limit).Reads text values rest := by
  induction reads generalizing limit with
  | stop fails =>
      cases limit with
      | zero => exact .pure
      | succ limit => exact .orElse_right (((reads_blanks _).bind_fails fails).bind) .pure
  | more first _ ih =>
      cases limit with
      | zero => exact absurd within (Nat.not_succ_le_zero _)
      | succ limit =>
          refine .orElse_left ?_
          exact ((reads_blanks _).bind first).bind
            ((ih (Nat.le_of_succ_le_succ within)).bind .pure)

theorem Reads.many {values : List α} (first : parser.Reads text value rest)
    (others : ReadsAll parser rest values last) (within : values.length ≤ text.length) :
    (many parser).Reads text (value :: values) last := by
  intro negated offset clash attempts
  have several := (others.repeated within).bind
    (f := fun values => Pure.pure (value :: values)) .pure
  exact (Reads.orElse_left (first.bind several)) negated offset clash attempts

theorem Fails.many (fails : parser.Fails text) : (many parser).Reads text [] text := by
  intro negated offset clash attempts
  exact (Reads.orElse_right fails.bind .pure) negated offset clash attempts

/-! ## Decisions -/

/-- A parser that for each text always does the same: it reads the text up to some end of it,
or it fails. -/
def Decides (parser : Parser α) : Prop :=
  ∀ text : List Char, (∃ value rest, rest <:+ text ∧ parser.Reads text value rest) ∨
    parser.Fails text

namespace Decides

theorem pure : Decides (Pure.pure value : Parser α) :=
  fun text => .inl ⟨value, text, List.suffix_rfl, .pure⟩

theorem bind (first : Decides parser) (second : ∀ value, Decides (f value)) :
    Decides (parser >>= f) := by
  intro text
  rcases first text with ⟨value, rest, shorter, reads⟩ | fails
  · rcases second value rest with ⟨result, last, shorterStill, readsLater⟩ | failsLater
    · exact .inl ⟨result, last, shorterStill.trans shorter, reads.bind readsLater⟩
    · exact .inr (reads.bind_fails failsLater)
  · exact .inr fails.bind

theorem orElse (first : Decides parser) (second : Decides other) :
    Decides (Parser.orElse parser other) := by
  intro text
  rcases first text with ⟨value, rest, shorter, reads⟩ | fails
  · exact .inl ⟨value, rest, shorter, .orElse_left reads⟩
  · rcases second text with ⟨value, rest, shorter, reads⟩ | also
    · exact .inl ⟨value, rest, shorter, .orElse_right fails reads⟩
    · exact .inr (fails.orElse also)

theorem fail : Decides (Parser.fail : Parser α) :=
  fun text => .inr (fails_fail text)

theorem firstOf {parsers : List (Parser α)} (decide : ∀ parser ∈ parsers, Decides parser) :
    Decides (Parser.firstOf parsers) := by
  induction parsers with
  | nil => exact fail
  | cons parser others ih =>
      exact (decide parser List.mem_cons_self).orElse
        (ih fun other member => decide other (List.mem_cons_of_mem _ member))

theorem absent (decides : Decides parser) : Decides (Parser.absent parser) := by
  intro text
  rcases decides text with ⟨value, rest, _, reads⟩ | fails
  · exact .inr reads.absent
  · exact .inl ⟨(), text, List.suffix_rfl, fails.absent⟩

theorem rule {name : Rule} (decides : Decides parser) : Decides (Parser.rule name parser) := by
  intro text
  rcases decides text with ⟨value, rest, shorter, reads⟩ | fails
  · exact .inl ⟨value, rest, shorter, reads.rule⟩
  · exact .inr fails.rule

theorem character (member : Char → Bool) : Decides (Parser.character member) := by
  intro text
  cases text with
  | nil => exact .inr (fails_character nofun)
  | cons c rest =>
      cases holds : member c with
      | true => exact .inl ⟨c, rest, List.suffix_cons c rest, reads_character holds⟩
      | false => exact .inr (fails_character (by simpa using holds))

theorem charactersWhile (member : Char → Bool) : Decides (Parser.charactersWhile member) :=
  fun text => .inl ⟨_, _, List.dropWhile_suffix _, reads_charactersWhile member text⟩

theorem literal (sign : String) : Decides (Parser.literal sign) := by
  intro text
  by_cases starts : sign.toList <+: text
  · obtain ⟨rest, rfl⟩ := starts
    exact .inl ⟨(), rest, List.suffix_append _ _, reads_literal sign rest⟩
  · exact .inr (fails_literal starts)

theorem blanks : Decides Parser.blanks :=
  fun text => .inl ⟨(), _, List.dropWhile_suffix _, reads_blanks text⟩

theorem repeated (decides : Decides parser) : (limit : Nat) → Decides (Parser.repeated parser limit)
  | 0 => pure
  | limit + 1 => (decides.bind fun _ => (repeated decides limit).bind fun _ => pure).orElse pure

theorem many (decides : Decides parser) : Decides (Parser.many parser) := by
  intro text
  have empty : Decides (Pure.pure ([] : List α)) := pure
  have several := (decides.bind fun value => ((blanks.bind fun _ => decides).repeated
    text.length).bind fun values => (pure : Decides (Pure.pure (value :: values)))).orElse empty
  rcases several text with ⟨values, rest, shorter, reads⟩ | fails
  · exact .inl ⟨values, rest, shorter, fun negated offset clash attempts =>
      reads negated offset clash attempts⟩
  · exact .inr fun negated offset clash attempts => fails negated offset clash attempts

theorem separated {separator : Parser Unit} (sign : Decides separator) (item : Decides parser) :
    Decides (Parser.separated separator parser) :=
  item.bind fun _ => blanks.bind fun _ =>
    (many (sign.bind fun _ => blanks.bind fun _ => item)).bind fun _ => pure

end Decides

/-- What a parser reads from a text is unique. -/
theorem Reads.unique (reads : parser.Reads text value rest) {found : α} {behind : List Char}
    (also : parser.Reads text found behind) : value = found ∧ rest = behind := by
  obtain ⟨_, _, run⟩ := reads false 0 none .none
  obtain ⟨_, _, runAlso⟩ := also false 0 none .none
  rw [run] at runAlso
  cases runAlso
  exact ⟨rfl, rfl⟩

theorem Fails.not_reads (fails : parser.Fails text) : ¬ parser.Reads text value rest := by
  intro reads
  obtain ⟨_, run⟩ := fails false 0 none .none
  obtain ⟨_, _, runAlso⟩ := reads false 0 none .none
  rw [run] at runAlso
  cases runAlso

/-- What a parser that reads a text comes to there in any run. -/
theorem Reads.matched (reads : parser.Reads text value rest)
    {negated : Bool} {cursor later : Cursor}
    {attempts tried : Attempts} {found : α} (same : cursor.rest = text)
    (run : parser negated cursor attempts = .matched found later tried) :
    found = value ∧ later.rest = rest := by
  obtain ⟨_, _, runs⟩ := reads negated cursor.offset cursor.clash attempts
  rw [← same] at runs
  rw [run] at runs
  cases runs
  exact ⟨rfl, rfl⟩

theorem Fails.not_matched (fails : parser.Fails text) {negated : Bool} {cursor later : Cursor}
    {attempts tried : Attempts} {found : α} (same : cursor.rest = text) :
    parser negated cursor attempts ≠ .matched found later tried := by
  intro run
  obtain ⟨_, runs⟩ := fails negated cursor.offset cursor.clash attempts
  rw [← same] at runs
  rw [run] at runs
  cases runs

/-! ## Repetitions that stop by themselves -/

/-- A parser that reads at least one character of every text it reads. -/
def Consumes (parser : Parser α) : Prop :=
  ∀ {text value rest}, parser.Reads text value rest → rest.length < text.length

theorem ReadsAll.length_le {values : List α} (consumes : Consumes parser)
    (reads : ReadsAll parser text values rest) : values.length ≤ text.length := by
  induction reads with
  | stop _ => exact Nat.zero_le _
  | @more text rest _ _ _ first _ ih =>
      have shorter := consumes first
      have skipped : (skip text).length ≤ text.length := (List.dropWhile_sublist _).length_le
      rw [List.length_cons]
      omega

theorem ReadsAll.fails {values : List α} (reads : ReadsAll parser text values rest) :
    parser.Fails (skip rest) := by
  induction reads with
  | stop fails => exact fails
  | more _ _ ih => exact ih

theorem exists_readsAll (decides : Decides parser) (consumes : Consumes parser) (text : List Char) :
    ∃ values rest, ReadsAll parser text values rest := by
  generalize size : text.length = length
  induction length using Nat.strongRecOn generalizing text with
  | ind length ih =>
      rcases decides (skip text) with ⟨value, rest, _, reads⟩ | fails
      · have shorter := consumes reads
        have skipped : (skip text).length ≤ text.length := (List.dropWhile_sublist _).length_le
        obtain ⟨values, last, others⟩ := ih rest.length (by omega) rest rfl
        exact ⟨value :: values, last, .more reads others⟩
      · exact ⟨[], text, .stop fails⟩

/-- A repetition goes on until its parser fails. -/
theorem reads_many (decides : Decides parser) (consumes : Consumes parser) {text : List Char}
    (settled : skip text = text) :
    ∃ values rest, (many parser).Reads text values rest ∧ parser.Fails (skip rest) := by
  rcases decides text with ⟨value, rest, _, reads⟩ | fails
  · obtain ⟨values, last, others⟩ := exists_readsAll decides consumes rest
    have shorter := consumes reads
    have within := others.length_le consumes
    exact ⟨value :: values, last, reads.many others (by omega), others.fails⟩
  · exact ⟨[], text, fails.many, settled.symm ▸ fails⟩

end TreeQuery.Grammar.Parser
