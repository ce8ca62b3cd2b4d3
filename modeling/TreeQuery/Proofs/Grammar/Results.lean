import Mathlib.Data.List.DropRight
import TreeQuery.Grammar.Token
import TreeQuery.Proofs.Grammar.Reading

/-!
# What parsers come to

`Parser.Ensures` says what holds of the value that a parser matches with and of the text that
it leaves, given where it started.  Nothing is said of texts that it does not match, so this is
the other direction of `Parser.Reads`: what can be concluded from a match.  There is one rule
for each way of putting parsers together.

Most parsers are run at texts without separators in front (`Settled`), since `blanks` is run
before them; the rules for sequences with blanks keep track of that.
-/

set_option autoImplicit false

namespace TreeQuery.Grammar.Parser

variable {α β : Type} {parser other : Parser α} {f : α → Parser β}
variable {start : List Char → Prop} {good : α → List Char → Prop} {last : β → List Char → Prop}

/-- A text that starts with no separator. -/
def Settled (text : List Char) : Prop := skip text = text

theorem settled_skip (text : List Char) : Settled (skip text) :=
  List.dropWhile_idempotent _ _

/-- Wherever a parser matches, from a text of some kind, something holds of the value and of the
text that is left. -/
def Ensures (start : List Char → Prop) (parser : Parser α) (good : α → List Char → Prop) : Prop :=
  ∀ (negated : Bool) (cursor later : Cursor) (attempts tried : Attempts) (value : α),
    start cursor.rest → parser negated cursor attempts = .matched value later tried →
      good value later.rest

namespace Ensures

theorem mono {before : List Char → Prop} {better : α → List Char → Prop}
    (ensures : Ensures start parser good) (starts : ∀ text, before text → start text)
    (holds : ∀ value rest, good value rest → better value rest) :
    Ensures before parser better :=
  fun _ _ _ _ _ _ began run => holds _ _ (ensures _ _ _ _ _ _ (starts _ began) run)

theorem and {also : α → List Char → Prop} (first : Ensures start parser good)
    (second : Ensures start parser also) :
    Ensures start parser fun value rest => good value rest ∧ also value rest :=
  fun _ _ _ _ _ _ began run => ⟨first _ _ _ _ _ _ began run, second _ _ _ _ _ _ began run⟩

theorem pure {value : α} (holds : ∀ text, start text → good value text) :
    Ensures start (Pure.pure value) good := by
  intro negated cursor later attempts tried found began run
  cases run
  exact holds _ began

theorem bind (first : Ensures start parser good)
    (second : ∀ value, Ensures (good value) (f value) last) :
    Ensures start (parser >>= f) last := by
  intro negated cursor later attempts tried found began run
  change Parser.andThen parser f negated cursor attempts = _ at run
  rw [Parser.andThen] at run
  cases matched : parser negated cursor attempts with
  | failed _ => simp [matched] at run
  | matched value between _ =>
      simp only [matched] at run
      exact second value _ _ _ _ _ _ (first _ _ _ _ _ _ began matched) run

theorem orElse (first : Ensures start parser good) (second : Ensures start other good) :
    Ensures start (Parser.orElse parser other) good := by
  intro negated cursor later attempts tried found began run
  rw [Parser.orElse] at run
  cases matched : parser negated cursor attempts with
  | failed _ =>
      simp only [matched] at run
      exact second _ _ _ _ _ _ began run
  | matched value between _ =>
      simp only [matched] at run
      cases run
      exact first _ _ _ _ _ _ began matched

theorem fail : Ensures start Parser.fail good := by
  intro negated cursor later attempts tried found _ run
  cases run

theorem firstOf {parsers : List (Parser α)} (all : ∀ parser ∈ parsers, Ensures start parser good) :
    Ensures start (Parser.firstOf parsers) good := by
  induction parsers with
  | nil => exact fail
  | cons parser others ih =>
      exact (all parser List.mem_cons_self).orElse
        (ih fun other member => all other (List.mem_cons_of_mem _ member))

theorem rule {name : Rule} (ensures : Ensures start parser good) :
    Ensures start (Parser.rule name parser) good := by
  intro negated cursor later attempts tried found began run
  simp only [Parser.rule] at run
  cases matched : parser negated cursor attempts with
  | failed _ => simp [matched] at run
  | matched value between _ =>
      simp only [matched] at run
      cases run
      exact ensures _ _ _ _ _ _ began matched

theorem blanks_of (after : List Char → Prop) (skips : ∀ text, start text → after (skip text)) :
    Ensures start Parser.blanks fun _ rest => after rest := by
  intro negated cursor later attempts tried found began run
  cases run
  exact skips _ began

theorem blanks : Ensures start Parser.blanks fun _ rest => Settled rest :=
  blanks_of Settled fun text _ => settled_skip text

theorem absent : Ensures start (Parser.absent parser) fun _ rest =>
    start rest ∧ ∀ value last, ¬ parser.Reads rest value last := by
  intro negated cursor later attempts tried found began run
  rw [Parser.absent] at run
  cases failed : parser (!negated) cursor attempts with
  | matched _ _ _ => simp [failed] at run
  | failed _ =>
      simp only [failed] at run
      cases run
      refine ⟨began, fun value last reads => ?_⟩
      obtain ⟨_, _, matched⟩ := reads (!negated) cursor.offset cursor.clash attempts
      rw [failed] at matched
      cases matched

/-- What a parser that always does the same at a text comes to there. -/
theorem of_reads {text rest : List Char} {value : α} (reads : parser.Reads text value rest)
    (holds : good value rest) : Ensures (· = text) parser good := by
  intro negated cursor later attempts tried found began run
  obtain ⟨same, behind⟩ := reads.matched began run
  rw [same, behind]
  exact holds

theorem of_fails {text : List Char} (fails : parser.Fails text) :
    Ensures (· = text) parser good :=
  fun _ _ _ _ _ _ began run => absurd run (fails.not_matched began)

/-- What is known at every single text is known at all of them. -/
theorem of_texts (each : ∀ text, start text → Ensures (· = text) parser good) :
    Ensures start parser good :=
  fun _ cursor _ _ _ _ began run => each cursor.rest began _ _ _ _ _ _ rfl run

/-- A repetition is a first item and a number of further ones, or nothing. -/
theorem many_of {all : List α → List Char → Prop} (several : ∀ limit, Ensures start
      (Parser.orElse (do
        let value ← parser
        let values ← Parser.repeated (do Parser.blanks; parser) limit
        return value :: values) (succeed [])) all) :
    Ensures start (Parser.many parser) all :=
  fun _ cursor _ _ _ _ began run => several cursor.rest.length _ _ _ _ _ _ began run

/-- What each item of a repetition leaves behind, the repetition leaves behind. -/
theorem many {kept : List Char → Prop}
    (each : Ensures Settled parser fun _ rest => kept rest) :
    Ensures (fun text => Settled text ∧ kept text) (Parser.many parser)
      fun _ rest => kept rest := by
  have repeated : ∀ limit, Ensures kept (Parser.repeated (do Parser.blanks; parser) limit)
      fun _ rest => kept rest := by
    intro limit
    induction limit with
    | zero => exact pure fun _ => id
    | succ limit ih =>
        refine orElse ?_ (pure fun _ => id)
        exact (blanks.bind fun _ => each).bind fun _ => ih.bind fun _ => pure fun _ => id
  refine many_of fun limit => orElse ?_ (pure fun _ => And.right)
  refine (each.mono (fun _ => And.left) fun _ _ => id).bind fun _ => ?_
  exact (repeated limit).bind fun _ => pure fun _ => id

theorem trivial : Ensures start parser fun _ _ => True :=
  fun _ _ _ _ _ _ _ _ => True.intro

/-- Nothing is read where nothing is found. -/
theorem optional_none :
    Ensures start (Parser.optional parser) fun found rest => found = none → start rest :=
  orElse (trivial.bind fun _ => pure fun _ _ => nofun) (pure fun _ began _ => began)

/-- Nothing is read by a repetition without items. -/
theorem many_nil :
    Ensures start (Parser.many parser) fun values rest => values = [] → start rest :=
  many_of fun _ => orElse (trivial.bind fun _ => trivial.bind fun _ => pure fun _ _ => nofun)
    (pure fun _ began _ => began)

/-- A single item between separators is the first one. -/
theorem separated_nil {separator : Parser Unit} (first : Ensures start parser good)
    (skips : ∀ value text, good value text → good value (skip text)) :
    Ensures start (Parser.separated separator parser) fun read rest =>
      read.2 = [] → good read.1 rest :=
  first.bind fun value => (blanks_of (good value) (skips value)).bind fun _ =>
    many_nil.bind fun _ => pure fun _ => id

theorem endOfInput : Ensures start Parser.endOfInput fun _ rest => start rest ∧ rest = [] := by
  refine of_texts fun text began => ?_
  cases text with
  | nil => exact of_reads reads_endOfInput ⟨began, rfl⟩
  | cons c rest => exact of_fails (Fails.rule fun _ _ _ tried => ⟨tried, rfl⟩)

/-- What holds of a whole text is what holds of its content, with nothing but separators behind. -/
theorem whole {name : Rule} {text : List Char}
    (content : Ensures (· = skip text) parser good)
    (skips : ∀ value text, good value text → good value (skip text)) :
    Ensures (· = text) (Parser.whole name parser) fun value _ => good value [] := by
  refine rule ((blanks_of (· = skip text) fun _ => congrArg skip).bind fun _ =>
    content.bind fun value => ?_)
  refine (blanks_of (good value) (skips value)).bind fun _ => endOfInput.bind fun _ =>
    pure fun rest holds => ?_
  exact holds.2 ▸ holds.1

end Ensures

/-- A parser that always does the same matches with what it reads. -/
theorem Decides.ensures (decides : Decides parser) (text : List Char) :
    Ensures (· = text) parser fun value rest => parser.Reads text value rest := by
  rcases decides text with ⟨value, rest, _, reads⟩ | fails
  · exact .of_reads reads reads
  · exact .of_fails fails

/-! ## Values at settled texts -/

/-- Run at a settled text, a parser matches only with values of some kind. -/
def Gives (parser : Parser α) (holds : α → Prop) : Prop :=
  Ensures Settled parser fun value _ => holds value

namespace Gives

variable {holds : α → Prop} {result : β → Prop}

theorem of_anywhere (ensures : Ensures (fun _ => True) parser fun value _ => holds value) :
    Gives parser holds :=
  ensures.mono (fun _ _ => True.intro) fun _ _ => id

theorem trivial : Gives parser fun _ => True := Ensures.trivial

theorem fail : Gives Parser.fail holds := Ensures.fail

theorem pure {value : α} (given : holds value) : Gives (Pure.pure value) holds :=
  Ensures.pure fun _ _ => given

/-- A value made of the one that a parser matches with. -/
theorem map {f : α → β} (gives : Gives parser holds)
    (implies : ∀ value, holds value → result (f value)) :
    Gives (do return f (← parser)) result :=
  Ensures.bind gives fun value => Ensures.pure fun _ given => implies value given

/-- A value that does not depend on the one that a parser matches with. -/
theorem returned (value : β) (given : result value) :
    Gives (do let _ ← parser; return value) result :=
  trivial.map (f := fun _ => value) fun _ _ => given

theorem andThen_ensures (first : Gives parser holds)
    (second : ∀ value, holds value → Ensures Settled (f value) last) :
    Ensures Settled (do let value ← parser; blanks; f value) last := by
  refine Ensures.bind first fun value => ?_
  by_cases given : holds value
  · exact Ensures.blanks.bind fun _ => second value given
  · exact fun _ _ _ _ _ _ impossible => absurd impossible given

theorem andThen (first : Gives parser holds)
    (second : ∀ value, holds value → Gives (f value) result) :
    Gives (do let value ← parser; blanks; f value) result :=
  first.andThen_ensures second

theorem orElse (first : Gives parser holds) (second : Gives other holds) :
    Gives (Parser.orElse parser other) holds :=
  Ensures.orElse first second

theorem firstOf {parsers : List (Parser α)} (all : ∀ parser ∈ parsers, Gives parser holds) :
    Gives (Parser.firstOf parsers) holds :=
  Ensures.firstOf all

theorem rule {name : Rule} (gives : Gives parser holds) : Gives (Parser.rule name parser) holds :=
  Ensures.rule gives

theorem optional (gives : Gives parser holds) :
    Gives (Parser.optional parser) fun value => ∀ member ∈ value, holds member :=
  (gives.map fun _ given _ same => Option.some.inj same ▸ given).orElse (pure nofun)

theorem repeated (gives : Gives parser holds) : (limit : Nat) →
    Ensures (fun _ => True) (Parser.repeated (do Parser.blanks; parser) limit)
      fun values _ => ∀ value ∈ values, holds value
  | 0 => Ensures.pure fun _ _ => nofun
  | limit + 1 => by
      refine Ensures.orElse ?_ (Ensures.pure fun _ _ => nofun)
      refine (Ensures.blanks.bind fun _ => gives).bind fun value => ?_
      by_cases given : holds value
      · refine ((repeated gives limit).mono (fun _ _ => True.intro) fun _ _ => id).bind
          fun values => ?_
        exact Ensures.pure fun _ others => List.forall_mem_cons.mpr ⟨given, others⟩
      · exact fun _ _ _ _ _ _ impossible => absurd impossible given

theorem many (gives : Gives parser holds) :
    Gives (Parser.many parser) fun values => ∀ value ∈ values, holds value := by
  refine Ensures.many_of fun limit => Ensures.orElse (Ensures.bind gives fun value => ?_)
    (Ensures.pure fun _ _ => nofun)
  by_cases given : holds value
  · refine ((repeated gives limit).mono (fun _ _ => True.intro) fun _ _ => id).bind
      fun values => ?_
    exact Ensures.pure fun _ others => List.forall_mem_cons.mpr ⟨given, others⟩
  · exact fun _ _ _ _ _ _ impossible => absurd impossible given

theorem separated {separator : Parser Unit} (gives : Gives parser holds) :
    Gives (Parser.separated separator parser) fun read =>
      holds read.1 ∧ ∀ value ∈ read.2, holds value :=
  gives.andThen (f := fun first => do
    return (first, ← Parser.many (do separator; Parser.blanks; parser))) fun _ given =>
      (many (trivial.andThen fun _ _ => gives)).map fun _ others => ⟨given, others⟩

theorem enclosed {opening closing : String} (gives : Gives parser holds) :
    Gives (Grammar.enclosed opening parser closing) holds := by
  refine trivial.andThen (f := fun _ => do
    let value ← parser
    Parser.blanks
    literal closing
    return value) fun _ _ => ?_
  exact gives.andThen (f := fun value => do literal closing; return value) fun value given =>
    trivial.map (f := fun _ => value) fun _ _ => given

end Gives

end TreeQuery.Grammar.Parser
