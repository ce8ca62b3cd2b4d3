import TreeQuery.Grammar.Token
import TreeQuery.Proofs.Grammar.Reading

/-!
# Layouts of tokens

A printed expression is a sequence of tokens with gaps between them.  Where the gaps are, and
whether they are spaces or line ends, is a matter of layout: every parser of the grammar skips
them.  `Layout` relates a sequence of tokens to the texts that are laid out from it; a gap is
required only where two tokens would otherwise run into one name.

`Takes` and `Refuses` are reading and failing, seen from the tokens: whatever the layout, a
parser takes a value from the front of a token sequence and leaves the others, or it does
not match.  An expression that nests to the left is read as a first part and a list of further
parts, and put together afterwards; `Begins` is what its parts prove about reading it.
-/

set_option autoImplicit false

namespace TreeQuery.Grammar

open TreeQuery.Grammar.Parser

/-! ## Tokens and gaps -/

/-- The characters that stand between printed tokens. -/
def isGap (c : Char) : Bool := c = ' ' || c = '\n'

theorem isSeparator_of_isGap {c : Char} (gap : isGap c = true) : isSeparator c = true := by
  simp only [isGap, Bool.or_eq_true, decide_eq_true_eq] at gap
  rcases gap with rfl | rfl <;> rfl

theorem not_isSeparator_of_continuesName {c : Char} (continues : continuesName c = true) :
    isSeparator c = false := by
  rw [← Bool.not_eq_true]
  intro separates
  simp only [isSeparator, Bool.or_eq_true, decide_eq_true_eq] at separates
  rcases separates with ((rfl | rfl) | rfl) | rfl <;> revert continues <;> decide

/-- A text that can stand as one token: it is not empty, does not start with a separator and
stays on one line. -/
structure IsToken (token : String) : Prop where
  starts : ∃ c rest, token.toList = c :: rest ∧ isSeparator c = false
  unbroken : ∀ c ∈ token.toList, c ≠ '\n' ∧ c ≠ '\r'

/-- Two texts that do not make up a longer name where they meet. -/
def Apart (first second : List Char) : Prop :=
  ∀ c ∈ first.getLast?, continuesName c = true → ∀ d ∈ second.head?, continuesName d = false

/-- The texts that are laid out from tokens. -/
inductive Layout : List String → List Char → Prop where
  | done {gap : List Char} : (∀ c ∈ gap, isGap c = true) → Layout [] gap
  | token {gap : List Char} {token : String} {tokens : List String} {rest : List Char} :
      (∀ c ∈ gap, isGap c = true) → IsToken token → Apart token.toList rest →
        Layout tokens rest → Layout (token :: tokens) (gap ++ (token.toList ++ rest))

/-- A token without a gap in front of it. -/
theorem Layout.tight {token : String} {tokens : List String} {rest : List Char}
    (isToken : IsToken token) (apart : Apart token.toList rest) (layout : Layout tokens rest) :
    Layout (token :: tokens) (token.toList ++ rest) :=
  @Layout.token [] token tokens rest nofun isToken apart layout

/-- The first character of the first token. -/
def lead (tokens : List String) : Option Char :=
  tokens.head?.bind (·.toList.head?)

@[simp] theorem lead_nil : lead [] = none := rfl

@[simp] theorem lead_cons (token : String) (tokens : List String) :
    lead (token :: tokens) = token.toList.head? := rfl

/-! ## Layouts in front of a parser -/

section

variable {token : String} {tokens : List String} {text rest : List Char}

theorem skip_gap {gap : List Char} (blank : ∀ c ∈ gap, isGap c = true) (rest : List Char) :
    skip (gap ++ rest) = skip rest :=
  List.dropWhile_append_of_pos fun c member => isSeparator_of_isGap (blank c member)

theorem IsToken.skip_append (isToken : IsToken token) (rest : List Char) :
    skip (token.toList ++ rest) = token.toList ++ rest := by
  obtain ⟨c, others, spelled, solid⟩ := isToken.starts
  rw [spelled, List.cons_append, skip, List.dropWhile_cons_of_neg (by simp [solid])]

theorem Layout.skip_nil (layout : Layout [] text) : skip text = [] := by
  cases layout with
  | done blank =>
      rw [← List.append_nil text, skip_gap blank]
      rfl

theorem Layout.skip_cons (layout : Layout (token :: tokens) text) :
    ∃ rest, skip text = token.toList ++ rest ∧ IsToken token ∧ Apart token.toList rest ∧
      Layout tokens rest := by
  cases layout with
  | token blank isToken apart layout =>
      exact ⟨_, by rw [skip_gap blank, isToken.skip_append], isToken, apart, layout⟩

theorem Layout.skip (layout : Layout tokens text) : Layout tokens (skip text) := by
  cases tokens with
  | nil =>
      rw [layout.skip_nil]
      exact .done nofun
  | cons token tokens =>
      obtain ⟨rest, same, isToken, apart, layout⟩ := layout.skip_cons
      rw [same]
      exact .tight isToken apart layout

theorem Layout.head?_skip (layout : Layout tokens text) :
    (Parser.skip text).head? = lead tokens := by
  cases tokens with
  | nil =>
      rw [layout.skip_nil]
      rfl
  | cons token tokens =>
      obtain ⟨rest, same, isToken, _, _⟩ := layout.skip_cons
      obtain ⟨c, others, spelled, _⟩ := isToken.starts
      rw [same, lead_cons, spelled]
      rfl

/-- A text starts with a gap or with its first token. -/
theorem Layout.isGap_or_lead (layout : Layout tokens text) {c : Char} (starts : c ∈ text.head?) :
    isGap c = true ∨ lead tokens = some c := by
  cases layout with
  | @done gap blank => exact .inl (blank c (List.mem_of_mem_head? starts))
  | @token gap _ _ _ blank isToken _ _ =>
      cases gap with
      | nil =>
          obtain ⟨d, others, spelled, _⟩ := isToken.starts
          right
          simpa [spelled] using starts
      | cons d gap =>
          obtain rfl : d = c := by simpa using starts
          exact .inl (blank d List.mem_cons_self)

theorem Layout.length_le (layout : Layout tokens text) :
    tokens.length ≤ (Parser.skip text).length := by
  induction layout with
  | done _ => exact Nat.zero_le _
  | @token gap token tokens rest blank isToken _ _ ih =>
      obtain ⟨c, others, spelled, _⟩ := isToken.starts
      have shorter : (Parser.skip rest).length ≤ rest.length := (List.dropWhile_sublist _).length_le
      rw [skip_gap blank, isToken.skip_append, spelled]
      simp only [List.length_cons, List.length_append]
      omega

end

/-! ## Taking and refusing -/

section

variable {α β : Type} {parser other : Parser α} {f : α → Parser β} {value : α} {result : β}
variable {tokens between remaining : List String}

/-- A parser takes a value from the front of a token sequence and leaves the others. -/
def Takes (parser : Parser α) (tokens : List String) (value : α) (remaining : List String) : Prop :=
  ∀ text : List Char, Layout tokens text →
    ∃ rest : List Char, Layout remaining rest ∧ parser.Reads (skip text) value rest

/-- A parser does not match a token sequence. -/
def Refuses (parser : Parser α) (tokens : List String) : Prop :=
  ∀ text : List Char, Layout tokens text → parser.Fails (skip text)

theorem Takes.return {f : α → β} (takes : Takes parser tokens value remaining) :
    Takes (do return f (← parser)) tokens (f value) remaining := by
  intro text layout
  obtain ⟨rest, layout, reads⟩ := takes text layout
  exact ⟨rest, layout, reads.bind .pure⟩

theorem Takes.andThen (first : Takes parser tokens value between)
    (second : Takes (f value) between result remaining) :
    Takes (do let value ← parser; blanks; f value) tokens result remaining := by
  intro text layout
  obtain ⟨rest, layout, reads⟩ := first text layout
  obtain ⟨last, layout, readsLater⟩ := second rest layout
  exact ⟨last, layout, reads.bind ((reads_blanks rest).bind readsLater)⟩

theorem Refuses.bind (refuses : Refuses parser tokens) : Refuses (parser >>= f) tokens :=
  fun text layout => (refuses text layout).bind

theorem Takes.andThen_refuses (first : Takes parser tokens value between)
    (second : Refuses (f value) between) :
    Refuses (do let value ← parser; blanks; f value) tokens := by
  intro text layout
  obtain ⟨rest, layout, reads⟩ := first text layout
  exact reads.bind_fails ((reads_blanks rest).bind_fails (second rest layout))

theorem Takes.rule {name : Rule} (takes : Takes parser tokens value remaining) :
    Takes (Parser.rule name parser) tokens value remaining := by
  intro text layout
  obtain ⟨rest, layout, reads⟩ := takes text layout
  exact ⟨rest, layout, reads.rule⟩

theorem Refuses.rule {name : Rule} (refuses : Refuses parser tokens) :
    Refuses (Parser.rule name parser) tokens :=
  fun text layout => (refuses text layout).rule

theorem Takes.firstOf {parsers : List (Parser α)} (takes : Takes parser tokens value remaining) :
    Takes (firstOf (parser :: parsers)) tokens value remaining := by
  intro text layout
  obtain ⟨rest, layout, reads⟩ := takes text layout
  exact ⟨rest, layout, .orElse_left reads⟩

theorem Takes.firstOf_cons {parsers : List (Parser α)} (refuses : Refuses parser tokens)
    (takes : Takes (Parser.firstOf parsers) tokens value remaining) :
    Takes (Parser.firstOf (parser :: parsers)) tokens value remaining := by
  intro text layout
  obtain ⟨rest, read, reads⟩ := takes text layout
  exact ⟨rest, read, .orElse_right (refuses text layout) reads⟩

theorem Refuses.firstOf {parsers : List (Parser α)}
    (refuse : ∀ parser ∈ parsers, Refuses parser tokens) :
    Refuses (Parser.firstOf parsers) tokens :=
  fun text layout => .firstOf fun parser member => refuse parser member text layout

theorem Takes.optional (takes : Takes parser tokens value remaining) :
    Takes (optional parser) tokens (some value) remaining := by
  intro text layout
  obtain ⟨rest, layout, reads⟩ := takes text layout
  exact ⟨rest, layout, reads.optional⟩

theorem Refuses.optional (refuses : Refuses parser tokens) :
    Takes (Parser.optional parser) tokens none tokens :=
  fun text layout => ⟨_, layout.skip, (refuses text layout).optional⟩

theorem Refuses.absent (refuses : Refuses parser tokens) :
    Takes (Parser.absent parser) tokens () tokens :=
  fun text layout => ⟨_, layout.skip, (refuses text layout).absent⟩

theorem Takes.absent (takes : Takes parser tokens value remaining) :
    Refuses (Parser.absent parser) tokens := by
  intro text layout
  obtain ⟨rest, _, reads⟩ := takes text layout
  exact reads.absent

/-! ## Repetitions -/

/-- Values taken one after the other until no further one can be taken. -/
inductive TakesAll (parser : Parser α) : List String → List α → List String → Prop where
  | stop {tokens : List String} : Refuses parser tokens → TakesAll parser tokens [] tokens
  | more {tokens between remaining : List String} {value : α} {values : List α} :
      Takes parser tokens value between → between.length < tokens.length →
        TakesAll parser between values remaining →
          TakesAll parser tokens (value :: values) remaining

theorem TakesAll.length_le {values : List α} (takes : TakesAll parser tokens values remaining) :
    values.length ≤ tokens.length := by
  induction takes with
  | stop _ => exact Nat.zero_le _
  | more _ shorter _ ih => exact Nat.lt_of_le_of_lt ih shorter

theorem TakesAll.readsAll {values : List α} (takes : TakesAll parser tokens values remaining) :
    ∀ text : List Char, Layout tokens text →
      ∃ rest : List Char, Layout remaining rest ∧ ReadsAll parser text values rest := by
  induction takes with
  | stop refuses => exact fun text layout => ⟨text, layout, .stop (refuses text layout)⟩
  | more first _ _ ih =>
      intro text layout
      obtain ⟨rest, layout, reads⟩ := first text layout
      obtain ⟨last, layout, readsAll⟩ := ih rest layout
      exact ⟨last, layout, .more reads readsAll⟩

theorem TakesAll.many {values : List α} (takes : TakesAll parser tokens values remaining) :
    Takes (many parser) tokens values remaining := by
  intro text layout
  cases takes with
  | stop refuses => exact ⟨_, layout.skip, (refuses text layout).many⟩
  | more first shorter others =>
      obtain ⟨rest, layoutRest, reads⟩ := first text layout
      obtain ⟨last, layoutLast, readsAll⟩ := others.readsAll rest layoutRest
      refine ⟨last, layoutLast, reads.many readsAll ?_⟩
      exact Nat.le_trans others.length_le (Nat.le_trans (Nat.le_of_lt shorter) layout.length_le)

end

/-! ## Nesting to the left -/

section

variable {α β : Type} {head : Parser α} {tail : Parser β} {combine : α → β → α}
variable {tokens between remaining : List String} {value : α} {part : β}

/-- Tokens that begin with an expression which may go on: whatever further parts are taken
behind it, a first part and all further parts are taken from the front, and together they make
up the expression with its further parts. -/
def Begins (head : Parser α) (tail : Parser β) (combine : α → β → α) (tokens : List String)
    (value : α) (between : List String) : Prop :=
  ∀ (parts : List β) (remaining : List String), TakesAll tail between parts remaining →
    ∃ (first : α) (others : List β) (behind : List String),
      Takes head tokens first behind ∧ TakesAll tail behind others remaining ∧
        others.foldl combine first = parts.foldl combine value

theorem Takes.begins (takes : Takes head tokens value between) :
    Begins head tail combine tokens value between :=
  fun parts _ further => ⟨value, parts, between, takes, further, rfl⟩

theorem Begins.next (begins : Begins head tail combine tokens value between)
    (takes : Takes tail between part remaining) (shorter : remaining.length < between.length) :
    Begins head tail combine tokens (combine value part) remaining := by
  intro parts last further
  obtain ⟨first, others, behind, takesFirst, takesOthers, same⟩ :=
    begins (part :: parts) last (.more takes shorter further)
  exact ⟨first, others, behind, takesFirst, takesOthers, same⟩

theorem Begins.takes (begins : Begins head tail combine tokens value between)
    (refuses : Refuses tail between) :
    Takes (do
      let first ← head
      blanks
      let others ← many tail
      return others.foldl combine first) tokens value between := by
  obtain ⟨first, others, behind, takesFirst, takesOthers, same⟩ :=
    begins [] between (.stop refuses)
  have all := takesOthers.many.return (f := fun others => others.foldl combine first)
  rw [same] at all
  exact takesFirst.andThen (f := fun first => do
    return (← many tail).foldl combine first) all

theorem Begins.separated {separator : Parser Unit} {combine : α → α → α}
    (begins : Begins head (do separator; blanks; head) combine tokens value between)
    (refuses : Refuses (do separator; blanks; head) between) :
    Takes (do
      let (first, others) ← separated separator head
      return others.foldl combine first) tokens value between := by
  obtain ⟨first, others, behind, takesFirst, takesOthers, same⟩ :=
    begins [] between (.stop refuses)
  have all : Takes (Parser.separated separator head) tokens (first, others) between :=
    takesFirst.andThen (f := fun first => do
      return (first, ← many (do separator; blanks; head)))
      (takesOthers.many.return (f := fun others => (first, others)))
  have result := all.return (f := fun read => read.2.foldl combine read.1)
  rwa [show others.foldl combine first = value from same] at result

variable {separator : Parser Unit} {sign : String} {item : Parser α} {follows : List String → Prop}
variable {others : List (List String × α)}

/-- The items behind the first one of a list with separators. -/
theorem takesAll_separated (takesSign : ∀ tokens, Takes separator (sign :: tokens) () tokens)
    (items : ∀ part ∈ others, ∀ rest, follows rest → Takes item (part.1 ++ rest) part.2 rest)
    (followed : ∀ part ∈ others, ∀ rest, follows (sign :: (part.1 ++ rest)))
    (ends : follows remaining) (refuses : Refuses (do separator; blanks; item) remaining) :
    follows (others.flatMap (fun part => sign :: part.1) ++ remaining) ∧
      TakesAll (do separator; blanks; item)
        (others.flatMap (fun part => sign :: part.1) ++ remaining)
          (others.map (·.2)) remaining := by
  induction others with
  | nil => exact ⟨ends, .stop refuses⟩
  | cons part others ih =>
      obtain ⟨followsOthers, takesOthers⟩ := ih
        (fun part member => items part (List.mem_cons_of_mem _ member))
        (fun part member => followed part (List.mem_cons_of_mem _ member))
      rw [List.flatMap_cons, List.cons_append, List.cons_append, List.append_assoc]
      refine ⟨followed part List.mem_cons_self _, .more ?_
        (by simp only [List.length_append, List.length_cons]; omega) takesOthers⟩
      exact (takesSign _).andThen (items part List.mem_cons_self _ followsOthers)

/-- A list with separators is taken item by item, if every item is taken in front of whatever
follows it. -/
theorem takes_separated (follows : List String → Prop) (first : List String × α)
    (others : List (List String × α)) (remaining : List String)
    (takesSign : ∀ tokens, Takes separator (sign :: tokens) () tokens)
    (items : ∀ part ∈ first :: others, ∀ rest, follows rest →
      Takes item (part.1 ++ rest) part.2 rest)
    (followed : ∀ part ∈ others, ∀ rest, follows (sign :: (part.1 ++ rest)))
    (ends : follows remaining) (refuses : Refuses (do separator; blanks; item) remaining) :
    Takes (separated separator item)
      (first.1 ++ (others.flatMap (fun part => sign :: part.1) ++ remaining))
      (first.2, others.map (·.2)) remaining := by
  obtain ⟨followsOthers, takesOthers⟩ := takesAll_separated takesSign
    (fun part member => items part (List.mem_cons_of_mem _ member)) followed ends refuses
  exact (items first List.mem_cons_self _ followsOthers).andThen (f := fun first => do
    return (first, ← many (do separator; blanks; item)))
    (takesOthers.many.return (f := fun others => (first.2, others)))

end

end TreeQuery.Grammar
