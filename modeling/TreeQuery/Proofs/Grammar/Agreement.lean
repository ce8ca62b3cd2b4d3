import Mathlib.Data.List.Forall2
import TreeQuery.Grammar.Trees

/-!
# Parsers that agree

Two parsers agree if at every text both match or both fail, leave the same rest with the same
attempts, and come to values that belong together.  The first of them notes no clashes; the second
notes the clash that belongs to what the first has read, unless there was one before.  There is one
lemma for each way of putting parsers together, and the clash of a sequence is the first one of its
members.
-/

set_option autoImplicit false

namespace TreeQuery.Grammar

/-- Whether a clash, if there is one, is between different names. -/
def Genuine (found : Option TagClash) : Prop := ∀ clash ∈ found, clash.opening ≠ clash.closing

theorem Genuine.or {found later : Option TagClash} (first : Genuine found)
    (second : Genuine later) : Genuine (found.or later) := by
  cases found with
  | none => exact second
  | some clash => exact first

variable {σ τ α β : Type}

/-- What a first parser comes to without clashes belongs to what a second one comes to behind a
clash. -/
inductive Outcome.Agrees (belongs : σ → Option TagClash → α → Prop) (clash : Option TagClash) :
    Outcome σ → Outcome α → Prop where
  | failed (attempts : Attempts) : Agrees belongs clash (.failed attempts) (.failed attempts)
  | matched {shape : σ} {found : Option TagClash} {value : α} (offset : Nat) (rest : List Char)
      (attempts : Attempts) (genuine : Genuine found) (holds : belongs shape found value) :
      Agrees belongs clash (.matched shape ⟨offset, rest, none⟩ attempts)
        (.matched value ⟨offset, rest, clash.or found⟩ attempts)

namespace Parser

/-- Whether two parsers do the same everywhere and come to what belongs together. -/
def Agrees (first : Parser σ) (second : Parser α) (belongs : σ → Option TagClash → α → Prop) :
    Prop :=
  ∀ (negated : Bool) (offset : Nat) (rest : List Char) (clash : Option TagClash)
    (attempts : Attempts), (first negated ⟨offset, rest, none⟩ attempts).Agrees belongs clash
      (second negated ⟨offset, rest, clash⟩ attempts)

variable {first : Parser σ} {second : Parser α} {belongs : σ → Option TagClash → α → Prop}

/-- Both parsers fail, or both match. -/
theorem Agrees.run (agrees : Agrees first second belongs) (negated : Bool) (offset : Nat)
    (rest : List Char) (clash : Option TagClash) (attempts : Attempts) :
    (∃ tried, first negated ⟨offset, rest, none⟩ attempts = .failed tried ∧
      second negated ⟨offset, rest, clash⟩ attempts = .failed tried) ∨
    ∃ shape found value next left tried, Genuine found ∧ belongs shape found value ∧
      first negated ⟨offset, rest, none⟩ attempts = .matched shape ⟨next, left, none⟩ tried ∧
      second negated ⟨offset, rest, clash⟩ attempts =
        .matched value ⟨next, left, clash.or found⟩ tried := by
  have agreed := agrees negated offset rest clash attempts
  generalize first negated ⟨offset, rest, none⟩ attempts = left at agreed ⊢
  generalize second negated ⟨offset, rest, clash⟩ attempts = right at agreed ⊢
  cases agreed with
  | failed attempts => exact .inl ⟨attempts, rfl, rfl⟩
  | matched offset rest attempts genuine holds =>
      exact .inr ⟨_, _, _, _, _, _, genuine, holds, rfl, rfl⟩

namespace Agrees

/-! ## Sequences and choices -/

theorem imp {weaker : σ → Option TagClash → α → Prop} (agrees : Agrees first second belongs)
    (weakens : ∀ shape found value, belongs shape found value → weaker shape found value) :
    Agrees first second weaker := by
  intro negated offset rest clash attempts
  rcases agrees.run negated offset rest clash attempts with
    ⟨tried, ran, ranToo⟩ | ⟨shape, found, value, next, left, tried, genuine, holds, ran, ranToo⟩
  · rw [ran, ranToo]
    exact .failed tried
  · rw [ran, ranToo]
    exact .matched next left tried genuine (weakens _ _ _ holds)

theorem pure {shape : σ} {value : α} (holds : belongs shape none value) :
    Agrees (Pure.pure shape) (Pure.pure value) belongs := by
  intro negated offset rest clash attempts
  have same : (⟨offset, rest, clash⟩ : Cursor) = ⟨offset, rest, clash.or none⟩ := by
    rw [Option.or_none]
  show Outcome.Agrees belongs clash (.matched shape ⟨offset, rest, none⟩ attempts)
    (.matched value ⟨offset, rest, clash⟩ attempts)
  rw [same]
  exact .matched offset rest attempts nofun holds

/-- In a sequence the first clash counts. -/
theorem bind {next : σ → Parser τ} {further : α → Parser β}
    {last : τ → Option TagClash → β → Prop} (agrees : Agrees first second belongs)
    (others : ∀ shape found value, belongs shape found value →
      Agrees (next shape) (further value) fun result later final =>
        last result (found.or later) final) :
    Agrees (first >>= next) (second >>= further) last := by
  intro negated offset rest clash attempts
  show Outcome.Agrees last clash (andThen first next negated _ attempts)
    (andThen second further negated _ attempts)
  rw [andThen, andThen]
  rcases agrees.run negated offset rest clash attempts with
    ⟨tried, ran, ranToo⟩ | ⟨shape, found, value, between, left, tried, genuine, holds, ran, ranToo⟩
  · rw [ran, ranToo]
    exact .failed tried
  · rw [ran, ranToo]
    -- the second parser goes on behind the clash that has been noted so far
    rcases (others shape found value holds).run negated between left (clash.or found) tried with
      ⟨tried, ran, ranToo⟩ | ⟨_, later, _, reached, left, tried, genuineToo, holds, ran, ranToo⟩
    · simp only [ran, ranToo]
      exact .failed tried
    · simp only [ran, ranToo, Option.or_assoc]
      exact .matched reached left tried (genuine.or genuineToo) holds

theorem fail : Agrees Parser.fail Parser.fail belongs :=
  fun _ _ _ _ attempts => .failed attempts

theorem orElse {other : Parser σ} {alternative : Parser α} (agrees : Agrees first second belongs)
    (others : Agrees other alternative belongs) :
    Agrees (Parser.orElse first other) (Parser.orElse second alternative) belongs := by
  intro negated offset rest clash attempts
  rw [Parser.orElse, Parser.orElse]
  rcases agrees.run negated offset rest clash attempts with
    ⟨tried, ran, ranToo⟩ | ⟨shape, found, value, next, left, tried, genuine, holds, ran, ranToo⟩
  · rw [ran, ranToo]
    exact others negated offset rest clash tried
  · rw [ran, ranToo]
    exact .matched next left tried genuine holds

theorem firstOf {parsers : List (Parser σ)} {others : List (Parser α)}
    (agree : List.Forall₂ (Agrees · · belongs) parsers others) :
    Agrees (Parser.firstOf parsers) (Parser.firstOf others) belongs := by
  induction agree with
  | nil => exact fail
  | cons agrees _ ih => exact agrees.orElse ih

theorem absent (agrees : Agrees first second belongs) :
    Agrees (Parser.absent first) (Parser.absent second) fun _ found _ => found = none := by
  intro negated offset rest clash attempts
  rw [Parser.absent, Parser.absent]
  rcases agrees.run (!negated) offset rest clash attempts with
    ⟨tried, ran, ranToo⟩ | ⟨shape, found, value, next, left, tried, genuine, holds, ran, ranToo⟩
  · rw [ran, ranToo]
    have nothing : Agrees (Pure.pure ()) (Pure.pure ()) fun _ found _ => found = none := pure rfl
    exact nothing negated offset rest clash tried
  · rw [ran, ranToo]
    exact .failed tried

theorem rule {name : Rule} (agrees : Agrees first second belongs) :
    Agrees (Parser.rule name first) (Parser.rule name second) belongs := by
  intro negated offset rest clash attempts
  simp only [Parser.rule]
  rcases agrees.run negated offset rest clash attempts with
    ⟨tried, ran, ranToo⟩ | ⟨shape, found, value, next, left, tried, genuine, holds, ran, ranToo⟩
  · rw [ran, ranToo]
    exact .failed _
  · rw [ran, ranToo]
    exact .matched next left _ genuine holds

/-! ## What is made of values -/

theorem mapFirst {f : σ → τ} {last : τ → Option TagClash → α → Prop}
    (agrees : Agrees first second belongs)
    (holds : ∀ shape found value, belongs shape found value → last (f shape) found value) :
    Agrees (do return f (← first)) second last := by
  intro negated offset rest clash attempts
  show Outcome.Agrees last clash (andThen first _ negated _ attempts) _
  rw [andThen]
  rcases agrees.run negated offset rest clash attempts with
    ⟨tried, ran, ranToo⟩ | ⟨shape, found, value, next, left, tried, genuine, related, ran, ranToo⟩
  · rw [ran, ranToo]
    exact .failed tried
  · rw [ran, ranToo]
    exact .matched next left tried genuine (holds _ _ _ related)

theorem mapSecond {f : α → β} {last : σ → Option TagClash → β → Prop}
    (agrees : Agrees first second belongs)
    (holds : ∀ shape found value, belongs shape found value → last shape found (f value)) :
    Agrees first (do return f (← second)) last := by
  intro negated offset rest clash attempts
  show Outcome.Agrees last clash _ (andThen second _ negated _ attempts)
  rw [andThen]
  rcases agrees.run negated offset rest clash attempts with
    ⟨tried, ran, ranToo⟩ | ⟨shape, found, value, next, left, tried, genuine, related, ran, ranToo⟩
  · rw [ran, ranToo]
    exact .failed tried
  · rw [ran, ranToo]
    exact .matched next left tried genuine (holds _ _ _ related)

theorem map {f : σ → τ} {g : α → β} {last : τ → Option TagClash → β → Prop}
    (agrees : Agrees first second belongs)
    (holds : ∀ shape found value, belongs shape found value → last (f shape) found (g value)) :
    Agrees (do return f (← first)) (do return g (← second)) last :=
  agrees.bind fun shape found value related => pure (by
    rw [Option.or_none]
    exact holds shape found value related)

theorem optional (agrees : Agrees first second belongs) :
    Agrees (Parser.optional first) (Parser.optional second) fun shape found value =>
      (shape = none ∧ found = none ∧ value = none) ∨
        ∃ inner given, shape = some inner ∧ value = some given ∧ belongs inner found given :=
  orElse (agrees.map fun inner _ given holds => .inr ⟨inner, given, rfl, rfl, holds⟩)
    (pure (.inl ⟨rfl, rfl, rfl⟩))

end Agrees

/-! ## Parsers without clashes -/

/-- A parser that notes no clashes. -/
def Steady (parser : Parser α) : Prop :=
  Agrees parser parser fun shape found value => shape = value ∧ found = none

theorem kept {belongs : σ → Option TagClash → α → Prop} {shape : σ} {value : α}
    (holds : belongs shape none value) (clash : Option TagClash) (offset : Nat)
    (rest : List Char) (attempts : Attempts) :
    Outcome.Agrees belongs clash (.matched shape ⟨offset, rest, none⟩ attempts)
      (.matched value ⟨offset, rest, clash⟩ attempts) :=
  Agrees.pure holds false offset rest clash attempts

namespace Steady

variable {parser : Parser α}

theorem pure (value : α) : Steady (Pure.pure value) := Agrees.pure ⟨rfl, rfl⟩

theorem bind {further : α → Parser β} (steady : Steady parser)
    (others : ∀ value, Steady (further value)) : Steady (parser >>= further) :=
  Agrees.bind steady (by
    rintro _ _ value ⟨rfl, rfl⟩
    exact others _)

theorem firstOf {parsers : List (Parser α)} (steady : ∀ parser ∈ parsers, Steady parser) :
    Steady (Parser.firstOf parsers) := by
  refine Agrees.firstOf ?_
  induction parsers with
  | nil => exact .nil
  | cons parser others ih =>
      obtain ⟨first, rest⟩ := List.forall_mem_cons.mp steady
      exact .cons first (ih rest)

theorem absent (steady : Steady parser) : Steady (Parser.absent parser) :=
  (Agrees.absent steady).imp fun _ _ _ none => ⟨rfl, none⟩

theorem rule {name : Rule} (steady : Steady parser) : Steady (Parser.rule name parser) :=
  Agrees.rule steady

theorem character (member : Char → Bool) : Steady (Parser.character member) := by
  intro negated offset rest clash attempts
  cases rest with
  | nil => exact .failed attempts
  | cons c rest =>
      simp only [Parser.character]
      split
      · exact kept ⟨rfl, rfl⟩ clash _ _ _
      · exact .failed attempts

theorem charactersWhile (member : Char → Bool) : Steady (Parser.charactersWhile member) :=
  fun _ _ _ clash _ => kept ⟨rfl, rfl⟩ clash _ _ _

theorem literal (text : String) : Steady (Parser.literal text) := by
  intro negated offset rest clash attempts
  unfold Parser.literal
  dsimp only
  split
  · exact kept ⟨rfl, rfl⟩ clash _ _ _
  · exact .failed attempts

theorem blanks : Steady Parser.blanks := (charactersWhile isSeparator).bind fun _ => pure ()

theorem endOfInput : Steady Parser.endOfInput := by
  refine rule fun negated offset rest clash attempts => ?_
  cases rest with
  | nil => exact kept ⟨rfl, rfl⟩ clash _ _ _
  | cons c rest => exact .failed attempts

theorem word (spellings : List String) : Steady (Grammar.word spellings) :=
  (firstOf (List.forall_mem_map.mpr fun spelling _ => literal spelling)).bind fun _ =>
    (character continuesName).absent

end Steady

/-- What is read before by a parser without clashes changes nothing. -/
theorem Agrees.behind {first : Parser σ} {second : Parser α}
    {belongs : σ → Option TagClash → α → Prop} (agrees : Agrees first second belongs)
    {parser : Parser β} (steady : Steady parser) :
    Agrees (do let _ ← parser; first) (do let _ ← parser; second) belongs :=
  Agrees.bind steady (by
    rintro _ _ _ ⟨rfl, rfl⟩
    exact agrees)

/-! ## Repetitions -/

/-- Values one after the other with what was read for each; the first clash counts. -/
inductive Series (belongs : List Tree → Option TagClash → α → Prop) :
    List Tree → Option TagClash → List α → Prop where
  | nil : Series belongs [] none []
  | cons {nodes more : List Tree} {found later : Option TagClash} {value : α} {values : List α} :
      belongs nodes found value → Series belongs more later values →
        Series belongs (nodes ++ more) (found.or later) (value :: values)

section Repetition

variable {trees : TreeParser} {parser : Parser α}
variable {belongs : List Tree → Option TagClash → α → Prop}

/-- One value in front of others. -/
theorem Agrees.ahead {furtherTrees : Parser (List (List Tree))} {further : Parser (List α)}
    (agrees : Agrees trees parser belongs) (others : Agrees furtherTrees further
      fun groups found values => Series belongs groups.flatten found values) :
    Agrees (do let nodes ← trees; let groups ← furtherTrees; return nodes :: groups)
      (do let value ← parser; let values ← further; return value :: values)
      fun groups found values => Series belongs groups.flatten found values :=
  agrees.bind fun _ _ _ holds => others.map fun _ _ _ series => .cons holds series

theorem Agrees.repeated (agrees : Agrees trees parser belongs) (limit : Nat) :
    Agrees (Parser.repeated trees limit) (Parser.repeated parser limit)
      fun groups found values => Series belongs groups.flatten found values := by
  induction limit with
  | zero => exact .pure .nil
  | succ limit ih => exact (agrees.ahead ih).orElse (.pure .nil)

theorem Agrees.many (agrees : Agrees trees parser belongs) :
    Agrees (Parser.many trees) (Parser.many parser)
      fun groups found values => Series belongs groups.flatten found values := by
  intro negated offset rest clash attempts
  have others := (agrees.behind Steady.blanks).repeated rest.length
  exact (agrees.ahead others).orElse (.pure .nil) negated offset rest clash attempts

end Repetition

/-! ## Nodes -/

section Nodes

variable {trees : TreeParser} {parser : Parser α}
variable {belongs : List Tree → Option TagClash → α → Prop}

/-- What is read without leaving nodes. -/
def Leafless (nodes : List Tree) (found : Option TagClash) (_ : α) : Prop :=
  nodes = [] ∧ found = none

theorem Agrees.unseen (steady : Steady parser) :
    Agrees (Grammar.unseen parser) parser Leafless :=
  steady.mapFirst fun _ _ _ same => ⟨rfl, same.2⟩

theorem agrees_sign (text : String) : Agrees (sign text) (literal text) Leafless :=
  .unseen (.literal text)

theorem Agrees.node {name : Rule} (agrees : Agrees trees parser belongs) :
    Agrees (Grammar.node name trees) (Parser.rule name parser) fun nodes found value =>
      ∃ text children, nodes = [.node name text children] ∧ belongs children found value := by
  intro negated offset rest clash attempts
  simp only [Grammar.node]
  rcases agrees.rule.run negated offset rest clash attempts with
    ⟨tried, ran, ranToo⟩ | ⟨nodes, found, value, next, left, tried, genuine, holds, ran, ranToo⟩
  · rw [ran, ranToo]
    exact .failed tried
  · rw [ran, ranToo]
    exact .matched next left tried genuine ⟨_, nodes, rfl, holds⟩

theorem Agrees.several (agrees : Agrees trees parser belongs) :
    Agrees (Grammar.several trees) (Parser.many parser) (Series belongs) :=
  agrees.many.mapFirst fun _ _ _ series => series

theorem Agrees.perhaps (agrees : Agrees trees parser belongs) :
    Agrees (Grammar.perhaps trees) (Parser.optional parser) fun nodes found value =>
      (nodes = [] ∧ found = none ∧ value = none) ∨
        ∃ given, value = some given ∧ belongs nodes found given :=
  agrees.optional.mapFirst fun shape found value holds => by
    rcases holds with ⟨rfl, rfl, rfl⟩ | ⟨nodes, given, rfl, rfl, holds⟩
    · exact .inl ⟨rfl, rfl, rfl⟩
    · exact .inr ⟨given, rfl, holds⟩

/-- A sequence is read member by member, with blanks behind each but the last. -/
theorem Agrees.spaced {next : TreeParser} {rest : List TreeParser} {further : α → Parser β}
    {last : List Tree → Option TagClash → β → Prop} (agrees : Agrees trees parser belongs)
    (others : ∀ nodes found value, belongs nodes found value →
      Agrees (Grammar.spaced (next :: rest)) (further value) fun more later final =>
        last (nodes ++ more) (found.or later) final) :
    Agrees (Grammar.spaced (trees :: next :: rest))
      (do let value ← parser; blanks; further value) last :=
  agrees.bind fun nodes found value holds =>
    ((others nodes found value holds).mapFirst fun _ _ _ related => related).behind Steady.blanks

theorem Agrees.adjoined {next : TreeParser} {rest : List TreeParser} {further : α → Parser β}
    {last : List Tree → Option TagClash → β → Prop} (agrees : Agrees trees parser belongs)
    (others : ∀ nodes found value, belongs nodes found value →
      Agrees (Grammar.adjoined (next :: rest)) (further value) fun more later final =>
        last (nodes ++ more) (found.or later) final) :
    Agrees (Grammar.adjoined (trees :: next :: rest)) (do let value ← parser; further value) last :=
  agrees.bind fun nodes found value holds =>
    (others nodes found value holds).mapFirst fun _ _ _ related => related

theorem Agrees.behindSign {text : String} {next : TreeParser} {rest : List TreeParser}
    (agrees : Agrees (Grammar.spaced (next :: rest)) parser belongs) :
    Agrees (Grammar.spaced (sign text :: next :: rest)) (do literal text; blanks; parser)
      belongs := by
  refine (agrees_sign text).spaced ?_
  rintro _ _ _ ⟨rfl, rfl⟩
  exact agrees

theorem Agrees.bracketed {opening closing : String} (agrees : Agrees trees parser belongs) :
    Agrees (Grammar.bracketed opening trees closing) (Grammar.enclosed opening parser closing)
      belongs := by
  refine .behindSign (agrees.spaced fun nodes found value holds => ?_)
  refine (agrees_sign closing).mapSecond ?_
  rintro _ _ _ ⟨rfl, rfl⟩
  rw [List.append_nil, Option.or_none]
  exact holds

/-- What is read of an item behind a separator. -/
def Marked (separates : List Tree → Prop) (belongs : List Tree → Option TagClash → α → Prop)
    (nodes : List Tree) (found : Option TagClash) (value : α) : Prop :=
  ∃ mark item, nodes = mark ++ item ∧ separates mark ∧ belongs item found value

/-- What is read of a list: its first item and, each behind a separator, the others. -/
def Listing (separates : List Tree → Prop) (belongs : List Tree → Option TagClash → α → Prop)
    (nodes : List Tree) (found : Option TagClash) (read : α × List α) : Prop :=
  ∃ first others foundFirst foundLater, nodes = first ++ others ∧
    found = foundFirst.or foundLater ∧ belongs first foundFirst read.1 ∧
      Series (Marked separates belongs) others foundLater read.2

theorem Agrees.listed {separator : TreeParser} {mark : Parser Unit} {separates : List Tree → Prop}
    (agrees : Agrees trees parser belongs)
    (separated : Agrees separator mark fun nodes found _ => separates nodes ∧ found = none) :
    Agrees (Grammar.listed separator trees) (Parser.separated mark parser)
      (Listing separates belongs) := by
  have item : Agrees (Grammar.spaced [separator, trees]) (do mark; blanks; parser)
      (Marked separates belongs) := by
    refine separated.spaced ?_
    rintro mark _ _ ⟨separates, rfl⟩
    exact agrees.imp fun item _ _ holds => ⟨mark, item, rfl, separates, holds⟩
  exact agrees.spaced fun first foundFirst _ holds =>
    item.several.mapSecond fun others foundLater _ series =>
      ⟨first, others, foundFirst, foundLater, rfl, rfl, holds, series⟩

end Nodes

end Parser
end TreeQuery.Grammar
