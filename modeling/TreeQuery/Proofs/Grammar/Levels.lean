import Mathlib.Data.List.Forall2
import TreeQuery.Grammar.Parse

/-!
# Nesting levels

A character is read before each nesting level is entered, so the levels that are stacked for a text
suffice: with any number of further levels the text is read in the same way
(`Query.run_levels`, `DocumentPath.run_levels`).  Two levels that do the same at all texts of less
than a number of characters have levels outside of them that do the same at texts of one more.
-/

set_option autoImplicit false

namespace TreeQuery
namespace Grammar

namespace Parser

variable {α β : Type}

/-- Two parsers that do the same at every text of less than a number of characters, and read at
least a number of characters there when they match. -/
def Coincides (room used : Nat) (first second : Parser α) : Prop :=
  ∀ (negated : Bool) (cursor : Cursor) (attempts : Attempts), cursor.rest.length < room →
    first negated cursor attempts = second negated cursor attempts ∧
      ∀ (value : α) (next : Cursor) (tried : Attempts),
        second negated cursor attempts = .matched value next tried →
          next.rest.length + used ≤ cursor.rest.length

namespace Coincides

variable {room used : Nat} {first second : Parser α}

theorem weaken (coincides : Coincides room used first second) : Coincides room 0 first second :=
  fun negated cursor attempts short =>
    have ⟨same, shorter⟩ := coincides negated cursor attempts short
    ⟨same, fun value next tried ran =>
      Nat.le_trans (Nat.add_le_add_left (Nat.zero_le used) _) (shorter value next tried ran)⟩

theorem within {less : Nat} (coincides : Coincides room used first second) (le : less ≤ room) :
    Coincides less used first second := fun negated cursor attempts short =>
  coincides negated cursor attempts (Nat.lt_of_lt_of_le short le)

theorem of_no_room : Coincides 0 used first second :=
  fun _ _ _ short => absurd short (Nat.not_lt_zero _)

/-! ## Sequences and choices -/

theorem pure {value : α} : Coincides room 0 (Pure.pure value) (Pure.pure value) := by
  intro negated cursor attempts short
  refine ⟨rfl, fun value next tried ran => ?_⟩
  cases ran
  exact Nat.le_refl _

/-- What is read behind a first part has less room, by as much as the first part has read. -/
theorem bind_of {behind : Nat} {f g : α → Parser β} (coincides : Coincides room used first second)
    (le : room ≤ behind + used) (others : ∀ value, Coincides behind 0 (f value) (g value)) :
    Coincides room used (first >>= f) (second >>= g) := by
  intro negated cursor attempts short
  obtain ⟨same, shorter⟩ := coincides negated cursor attempts short
  show andThen first f negated cursor attempts = andThen second g negated cursor attempts ∧
    ∀ value next tried, andThen second g negated cursor attempts = .matched value next tried → _
  rw [andThen, andThen, same]
  cases ran : second negated cursor attempts with
  | failed tried => exact ⟨rfl, fun _ _ _ ended => by cases ended⟩
  | matched value between tried =>
      have left := shorter value between tried ran
      obtain ⟨sameBehind, shorterBehind⟩ := others value negated between tried (by omega)
      refine ⟨sameBehind, fun result next last ran => ?_⟩
      have := shorterBehind result next last ran
      omega

theorem bind {f g : α → Parser β} (coincides : Coincides room used first second)
    (others : ∀ value, Coincides room 0 (f value) (g value)) :
    Coincides room used (first >>= f) (second >>= g) :=
  coincides.bind_of (Nat.le_add_right room used) others

theorem fail : Coincides room used (Parser.fail : Parser α) Parser.fail :=
  fun _ _ _ _ => ⟨rfl, fun _ _ _ ended => by cases ended⟩

theorem orElse {other alternative : Parser α} (coincides : Coincides room used first second)
    (others : Coincides room used other alternative) :
    Coincides room used (Parser.orElse first other) (Parser.orElse second alternative) := by
  intro negated cursor attempts short
  obtain ⟨same, shorter⟩ := coincides negated cursor attempts short
  rw [Parser.orElse, Parser.orElse, same]
  cases ran : second negated cursor attempts with
  | failed tried => exact others negated cursor tried short
  | matched value between tried =>
      refine ⟨rfl, fun result next last ended => ?_⟩
      cases ended
      exact shorter value between tried ran

theorem firstOf {parsers others : List (Parser α)}
    (coincides : List.Forall₂ (Coincides room used) parsers others) :
    Coincides room used (Parser.firstOf parsers) (Parser.firstOf others) := by
  induction coincides with
  | nil => exact fail
  | cons coincides _ ih => exact coincides.orElse ih

theorem absent (coincides : Coincides room used first second) :
    Coincides room 0 (Parser.absent first) (Parser.absent second) := by
  intro negated cursor attempts short
  obtain ⟨same, _⟩ := coincides (!negated) cursor attempts short
  rw [Parser.absent, Parser.absent, same]
  cases second (!negated) cursor attempts with
  | failed tried => exact pure negated cursor tried short
  | matched value between tried => exact ⟨rfl, fun _ _ _ ended => by cases ended⟩

theorem rule {name : Rule} (coincides : Coincides room used first second) :
    Coincides room used (Parser.rule name first) (Parser.rule name second) := by
  intro negated cursor attempts short
  obtain ⟨same, shorter⟩ := coincides negated cursor attempts short
  simp only [Parser.rule]
  rw [same]
  cases ran : second negated cursor attempts with
  | failed tried => exact ⟨rfl, fun _ _ _ ended => by cases ended⟩
  | matched value between tried =>
      refine ⟨rfl, fun result next last ended => ?_⟩
      cases ended
      exact shorter value between tried ran

theorem map {f : α → β} (coincides : Coincides room used first second) :
    Coincides room used (do return f (← first)) (do return f (← second)) :=
  coincides.bind fun _ => pure

theorem optional (coincides : Coincides room used first second) :
    Coincides room 0 (Parser.optional first) (Parser.optional second) :=
  coincides.map.weaken.orElse pure

/-! ## Characters -/

theorem character (member : Char → Bool) :
    Coincides room 0 (Parser.character member) (Parser.character member) := by
  intro negated cursor attempts short
  refine ⟨rfl, fun value next tried ran => ?_⟩
  rw [Parser.character] at ran
  cases rest : cursor.rest with
  | nil =>
      rw [rest] at ran
      cases ran
  | cons c further =>
      rw [rest] at ran
      by_cases isMember : member c = true
      · simp only [isMember, if_true] at ran
        cases ran
        exact Nat.le_succ _
      · simp only [isMember] at ran
        cases ran

theorem charactersWhile (member : Char → Bool) :
    Coincides room 0 (Parser.charactersWhile member) (Parser.charactersWhile member) := by
  intro negated cursor attempts short
  refine ⟨rfl, fun value next tried ran => ?_⟩
  cases ran
  exact (List.dropWhile_sublist member).length_le

theorem literal (text : String) :
    Coincides room text.length (Parser.literal text) (Parser.literal text) := by
  intro negated cursor attempts short
  refine ⟨rfl, fun value next tried ran => ?_⟩
  rw [Parser.literal] at ran
  cases found : text.toList.isPrefixOf? cursor.rest with
  | none =>
      rw [found] at ran
      cases ran
  | some rest =>
      rw [found] at ran
      cases ran
      have length := congrArg List.length (List.isPrefixOf?_eq_some_iff_append_eq.mp found)
      rw [List.length_append, String.length_toList, Nat.add_comm] at length
      exact Nat.le_of_eq length

theorem blanks : Coincides room 0 Parser.blanks Parser.blanks :=
  (charactersWhile isSeparator).bind fun _ => pure

theorem endOfInput : Coincides room 0 Parser.endOfInput Parser.endOfInput := by
  refine rule fun negated cursor attempts short => ⟨rfl, fun value next tried ran => ?_⟩
  cases rest : cursor.rest with
  | nil =>
      rw [rest] at ran
      cases ran
      rw [rest]
      exact Nat.le_refl _
  | cons c further =>
      rw [rest] at ran
      cases ran

theorem noteTags (opening closing : String) :
    Coincides room 0 (Parser.noteTags opening closing) (Parser.noteTags opening closing) := by
  intro negated cursor attempts short
  refine ⟨rfl, fun value next tried ran => ?_⟩
  cases ran
  exact Nat.le_refl _

theorem andThen {f g : α → Parser β} (coincides : Coincides room used first second)
    (others : ∀ value, Coincides room 0 (f value) (g value)) :
    Coincides room used (do let value ← first; Parser.blanks; f value)
      (do let value ← second; Parser.blanks; g value) :=
  coincides.bind fun value => blanks.bind fun _ => others value

/-! ## Repetitions -/

theorem repeated (coincides : Coincides room 0 first second) : (limit : Nat) →
    Coincides room 0 (Parser.repeated first limit) (Parser.repeated second limit)
  | 0 => pure
  | limit + 1 => (coincides.bind fun _ => (repeated coincides limit).map).orElse pure

theorem many (coincides : Coincides room 0 first second) :
    Coincides room 0 (Parser.many first) (Parser.many second) := by
  intro negated cursor attempts short
  have others := (blanks.bind fun _ => coincides).repeated cursor.rest.length
  have several : Coincides room 0 (Parser.orElse (do
      let value ← first
      let values ← Parser.repeated (do Parser.blanks; first) cursor.rest.length
      return value :: values) (succeed [])) (Parser.orElse (do
      let value ← second
      let values ← Parser.repeated (do Parser.blanks; second) cursor.rest.length
      return value :: values) (succeed [])) :=
    (coincides.bind fun _ => others.map).orElse pure
  exact several negated cursor attempts short

theorem separated {separator : Parser Unit} (mark : Coincides room 0 separator separator)
    (item : Coincides room 0 first second) :
    Coincides room 0 (Parser.separated separator first) (Parser.separated separator second) :=
  item.andThen fun _ => (mark.andThen fun _ => item).many.map

theorem enclosed {opening closing : String} (coincides : Coincides room 0 first second) :
    Coincides room 0 (Grammar.enclosed opening first closing)
      (Grammar.enclosed opening second closing) :=
  (literal opening).weaken.andThen fun _ => coincides.andThen fun _ => (literal closing).weaken.map

/-! ## Tokens -/

theorem identifier : Coincides room 0 Grammar.identifier Grammar.identifier :=
  ((character startsName).bind fun _ => (charactersWhile continuesName).map).rule

theorem stringLiteral : Coincides room 0 Grammar.stringLiteral Grammar.stringLiteral :=
  ((literal "\"").weaken.bind fun _ => (charactersWhile insideString).rule.bind fun _ =>
    (literal "\"").weaken.map).rule

theorem reference : Coincides room 0 Grammar.reference Grammar.reference :=
  ((literal "$").weaken.bind fun _ => identifier).rule

theorem sign {text : String} (nonempty : 1 ≤ text.length) :
    Coincides room 1 (Parser.literal text) (Parser.literal text) :=
  fun negated cursor attempts short =>
    have ⟨same, shorter⟩ := literal text negated cursor attempts short
    ⟨same, fun value next tried ran =>
      Nat.le_trans (Nat.add_le_add_left nonempty _) (shorter value next tried ran)⟩

theorem word {spellings : List String} (spelled : ∀ spelling ∈ spellings, 1 ≤ spelling.length) :
    Coincides room 1 (Grammar.word spellings) (Grammar.word spellings) := by
  refine (firstOf ?_).bind fun _ => (character continuesName).absent
  induction spellings with
  | nil => exact .nil
  | cons spelling others ih =>
      obtain ⟨first, rest⟩ := List.forall_mem_cons.mp spelled
      exact .cons (sign first) (ih rest)

theorem keyword {name : Rule} {spelling : String} (nonempty : 1 ≤ spelling.length) :
    Coincides room 1 (Grammar.keyword name spelling) (Grammar.keyword name spelling) :=
  (word (List.forall_mem_singleton.mpr nonempty)).rule

theorem axis : Coincides room 0 Grammar.axis Grammar.axis :=
  firstOf (.cons (literal "//").weaken.map.rule <| .cons (literal "/").weaken.map.rule .nil)

theorem valueOperator : Coincides room 0 Grammar.valueOperator Grammar.valueOperator :=
  (firstOf (.cons (literal "=").weaken <| .cons (keyword (by decide)).weaken .nil)).rule

theorem comparison : Coincides room 0 Grammar.comparison Grammar.comparison :=
  firstOf (.cons (firstOf (.cons (literal "==").weaken <|
    .cons (keyword (by decide)).weaken .nil)).map.rule <| .cons valueOperator.map .nil)

/-! ## Behind signs and keywords -/

/-- Behind a character there is room for one character less. -/
theorem behind {f g : α → Parser β} (coincides : Coincides (room + 1) 1 first second)
    (others : ∀ value, Coincides room 0 (f value) (g value)) :
    Coincides (room + 1) 1 (do let value ← first; Parser.blanks; f value)
      (do let value ← second; Parser.blanks; g value) :=
  coincides.bind_of (Nat.le_refl _) fun value => blanks.bind fun _ => others value

/-- Behind an opening sign there is room for one character less. -/
theorem inside {opening closing : String} (nonempty : 1 ≤ opening.length)
    (coincides : Coincides room 0 first second) :
    Coincides (room + 1) 0 (Grammar.enclosed opening first closing)
      (Grammar.enclosed opening second closing) :=
  ((sign nonempty).behind fun _ => coincides.andThen fun _ => (literal closing).weaken.map).weaken

end Coincides

end Parser

open TreeQuery.Grammar.Parser

/-! ## Levels of paths -/

/-- Two levels of paths that do the same at every text of less than a number of characters. -/
structure PathLevel.Coincide (room : Nat) (first second : PathLevel) : Prop where
  path : Coincides room 0 first.path second.path
  filter : Coincides room 0 first.filter second.filter
  negation : Coincides room 0 first.negation second.negation

namespace PathLevel.Coincide

variable {room : Nat} {first second : PathLevel} (coincide : Coincide room first second)
include coincide

theorem pathAtom : Coincides (room + 1) 0 first.pathAtom second.pathAtom := by
  have reserved : Coincides (room + 1) 1 reserved reserved := (Coincides.word (by decide)).rule
  refine (Coincides.firstOf (.cons ?_ <| .cons ?_ <| .cons ?_ <| .cons ?_ <| .cons ?_ <|
    .cons ?_ <| .cons ?_ .nil)).rule
  · exact ((Coincides.literal "text").weaken.andThen fun _ =>
      (Coincides.literal "(").weaken.andThen fun _ => (Coincides.literal ")").weaken.map).rule
  · exact (Coincides.literal "..").weaken.map.rule
  · exact (Coincides.literal ".").weaken.map.rule
  · exact (Coincides.literal "*").weaken.map.rule
  · exact ((Coincides.literal "@").weaken.bind fun _ => Coincides.identifier.map).rule
  · exact (Coincides.inside (by decide) coincide.path).map.rule
  · exact (reserved.absent.andThen fun _ => Coincides.identifier.map).rule

theorem pathFiltered : Coincides (room + 1) 0 first.pathFiltered second.pathFiltered :=
  (coincide.pathAtom.andThen fun _ =>
    (Coincides.inside (by decide) coincide.filter).many.map).rule

theorem pathSteps : Coincides (room + 1) 0 first.pathSteps second.pathSteps :=
  (coincide.pathFiltered.andThen fun _ =>
    (Coincides.axis.andThen fun _ => coincide.pathFiltered.map).many.map).rule

theorem outerPath : Coincides (room + 1) 0 first.outerPath second.outerPath :=
  (Coincides.separated (Coincides.literal ",").weaken coincide.pathSteps).map.rule

theorem filterPrimary : Coincides (room + 1) 0 first.filterPrimary second.filterPrimary := by
  have goesOn : Coincides (room + 1) 0 (firstOf [do let _ ← axis, literal "[", comma])
      (firstOf [do let _ ← axis, literal "[", comma]) :=
    .firstOf (.cons Coincides.axis.map <| .cons (Coincides.literal "[").weaken <|
      .cons (Coincides.literal ",").weaken .nil)
  refine (Coincides.firstOf (.cons ?_ <| .cons ?_ <| .cons ?_ <| .cons ?_ .nil)).rule
  · exact (coincide.outerPath.andThen fun _ => Coincides.valueOperator.andThen fun _ =>
      Coincides.stringLiteral.map).rule
  · exact (coincide.outerPath.andThen fun _ => Coincides.comparison.andThen fun _ =>
      coincide.outerPath.map).rule
  · exact ((Coincides.inside (by decide) coincide.filter).andThen fun _ => goesOn.absent.map).rule
  · exact coincide.outerPath.map.rule

theorem outerNegation : Coincides (room + 1) 0 first.outerNegation second.outerNegation :=
  (Coincides.firstOf (.cons ((Coincides.keyword (by decide)).behind fun _ =>
    coincide.negation.map).weaken <| .cons coincide.filterPrimary .nil)).rule

theorem filterAnd : Coincides (room + 1) 0 first.filterAnd second.filterAnd :=
  (Coincides.separated (Coincides.keyword (by decide)).weaken coincide.outerNegation).map.rule

theorem outerFilter : Coincides (room + 1) 0 first.outerFilter second.outerFilter :=
  (Coincides.separated (Coincides.keyword (by decide)).weaken coincide.filterAnd).map.rule.rule

theorem outside : Coincide (room + 1) first.outside second.outside :=
  ⟨coincide.outerPath, coincide.outerFilter, coincide.outerNegation⟩

end PathLevel.Coincide

/-- Further levels make no difference at texts of less characters than there are levels. -/
theorem pathLevel_coincide (further : Nat) : (levels : Nat) →
    (pathLevel levels).Coincide levels (pathLevel (levels + further))
  | 0 => ⟨.of_no_room, .of_no_room, .of_no_room⟩
  | levels + 1 => by
      rw [Nat.add_right_comm]
      exact (pathLevel_coincide further levels).outside

/-! ## Document paths -/

section DocumentPaths

variable {room : Nat} {first second : Parser Path} (path : Coincides room 0 first second)
include path

theorem documentPath_coincides : Coincides room 0 (documentPath first) (documentPath second) := by
  have call : Coincides room 0 documentCall documentCall :=
    ((Coincides.word (by decide)).rule.weaken.andThen fun _ =>
      Coincides.stringLiteral.enclosed).rule
  exact (call.andThen fun _ => Coincides.axis.andThen fun _ => path.map).rule

end DocumentPaths

/-! ## Levels of queries -/

/-- Two levels of queries that do the same at every text of less than a number of characters. -/
structure QueryLevel.Coincide (room : Nat) (first second : QueryLevel) : Prop where
  query : Coincides room 0 first.query second.query
  single : Coincides room 0 first.single second.single
  condition : Coincides room 0 first.condition second.condition
  negation : Coincides room 0 first.negation second.negation

namespace QueryLevel.Coincide

variable {room : Nat} {first second : QueryLevel} (coincide : Coincide room first second)

theorem bindings {firstBinding secondBinding : Parser Binding}
    (binding : Coincides room 0 firstBinding secondBinding) :
    Coincides room 0 (QueryLevel.bindings firstBinding) (QueryLevel.bindings secondBinding) :=
  (Coincides.separated (Coincides.literal ",").weaken binding).map

theorem tagList : Coincides room 0 QueryLevel.tagList QueryLevel.tagList :=
  (Coincides.separated (Coincides.literal ",").weaken
    Coincides.identifier).optional.enclosed.map.rule

include coincide

theorem inBinding : Coincides (room + 1) 0 first.inBinding second.inBinding :=
  (Coincides.reference.andThen fun _ => ((Coincides.keyword (by decide)).behind fun _ =>
    coincide.single.map).weaken).rule

theorem letBinding : Coincides (room + 1) 0 first.letBinding second.letBinding :=
  (Coincides.reference.andThen fun _ => ((Coincides.sign (by decide)).behind fun _ =>
    coincide.single.map).weaken).rule

theorem forClause : Coincides (room + 1) 0 first.forClause second.forClause :=
  ((Coincides.keyword (by decide)).andThen fun _ => bindings coincide.inBinding).rule.weaken

theorem letClause : Coincides (room + 1) 1 first.letClause second.letClause :=
  ((Coincides.keyword (by decide)).andThen fun _ => bindings coincide.letBinding).rule

theorem whereClause : Coincides (room + 1) 0 first.whereClause second.whereClause :=
  ((Coincides.keyword (by decide)).behind fun _ => coincide.condition).rule.weaken

theorem returnClause : Coincides (room + 1) 0 first.returnClause second.returnClause :=
  ((Coincides.keyword (by decide)).behind fun _ => coincide.query).rule.weaken

theorem flwr : Coincides (room + 1) 0 first.flwr second.flwr :=
  (coincide.forClause.andThen fun _ => coincide.letClause.optional.andThen fun _ =>
    coincide.whereClause.optional.andThen fun _ => coincide.returnClause.map).rule

theorem letIn : Coincides (room + 1) 0 first.letIn second.letIn :=
  (coincide.letClause.behind fun _ => coincide.query.map).rule.weaken

theorem join : Coincides (room + 1) 0 first.join second.join :=
  ((Coincides.keyword (by decide)).behind fun _ => (Coincides.literal "(").weaken.andThen fun _ =>
    coincide.single.andThen fun _ => (Coincides.literal ",").weaken.andThen fun _ =>
      coincide.single.andThen fun _ => (Coincides.literal ",").weaken.andThen fun _ =>
        tagList.andThen fun _ => (Coincides.literal ",").weaken.andThen fun _ =>
          tagList.andThen fun _ => (Coincides.literal ")").weaken.map).rule.weaken

theorem element : Coincides (room + 1) 0 first.element second.element := by
  refine ((Coincides.sign (by decide)).behind fun _ => ?_).rule.weaken
  exact Coincides.identifier.andThen fun opening => (Coincides.literal ">").weaken.andThen fun _ =>
    coincide.query.enclosed.andThen fun _ => (Coincides.literal "<").weaken.andThen fun _ =>
      (Coincides.literal "/").weaken.andThen fun _ => Coincides.identifier.andThen fun closing =>
        (Coincides.literal ">").weaken.bind fun _ => (Coincides.noteTags opening closing).map

section Paths

variable (path : Coincides (room + 1) 0 first.path second.path)
include path

theorem queryPrimary : Coincides (room + 1) 0 first.queryPrimary second.queryPrimary := by
  refine (Coincides.firstOf (.cons ?_ <| .cons ?_ <| .cons ?_ <| .cons ?_ <| .cons ?_ <|
    .cons ?_ .nil)).rule
  · exact (documentPath_coincides path).map
  · exact Coincides.reference.map
  · exact Coincides.stringLiteral.map
  · exact coincide.join
  · exact coincide.element
  · exact (Coincides.inside (by decide) coincide.query).map.rule

theorem queryPath : Coincides (room + 1) 0 first.queryPath second.queryPath :=
  ((coincide.queryPrimary path).andThen fun _ =>
    (Coincides.axis.andThen fun _ => path.map).optional.map).rule

theorem outerSingle : Coincides (room + 1) 0 first.outerSingle second.outerSingle :=
  (Coincides.firstOf (.cons coincide.flwr <| .cons coincide.letIn <|
    .cons (coincide.queryPath path) .nil)).rule

theorem outerQuery : Coincides (room + 1) 0 first.outerQuery second.outerQuery :=
  (Coincides.separated (Coincides.literal ",").weaken (coincide.outerSingle path)).map.rule

theorem conditionPrimary :
    Coincides (room + 1) 0 first.conditionPrimary second.conditionPrimary := by
  have inBinding : Coincides room 0 first.inBinding second.inBinding :=
    coincide.inBinding.within (Nat.le_succ room)
  refine (Coincides.firstOf (.cons ?_ <| .cons ?_ <| .cons ?_ <| .cons ?_ .nil)).rule
  · exact ((Coincides.keyword (by decide)).behind fun _ => coincide.query.enclosed.map).rule.weaken
  · exact ((Coincides.keyword (by decide)).behind fun _ => (bindings inBinding).andThen fun _ =>
      (Coincides.keyword (by decide)).weaken.andThen fun _ => coincide.condition.map).rule.weaken
  · exact ((coincide.outerSingle path).andThen fun _ => Coincides.comparison.andThen fun _ =>
      (coincide.outerSingle path).map).rule
  · exact (Coincides.inside (by decide) coincide.condition).map.rule

theorem outerNegation : Coincides (room + 1) 0 first.outerNegation second.outerNegation :=
  (Coincides.firstOf (.cons ((Coincides.keyword (by decide)).behind fun _ =>
    coincide.negation.map).weaken <| .cons (coincide.conditionPrimary path) .nil)).rule

theorem conditionAnd : Coincides (room + 1) 0 first.conditionAnd second.conditionAnd :=
  (Coincides.separated (Coincides.keyword (by decide)).weaken
    (coincide.outerNegation path)).map.rule

theorem outerCondition : Coincides (room + 1) 0 first.outerCondition second.outerCondition :=
  (Coincides.separated (Coincides.keyword (by decide)).weaken
    (coincide.conditionAnd path)).map.rule.rule

theorem outside : Coincide (room + 1) first.outside second.outside :=
  ⟨coincide.outerQuery path, coincide.outerSingle path, coincide.outerCondition path,
    coincide.outerNegation path⟩

end Paths

end QueryLevel.Coincide

theorem queryLevel_path (path : Parser Path) : (levels : Nat) →
    (queryLevel path levels).path = path
  | 0 => rfl
  | levels + 1 => queryLevel_path path levels

theorem queryLevel_coincide (further : Nat) {room : Nat} {path other : Parser Path}
    (paths : Coincides room 0 path other) : (levels : Nat) → levels ≤ room →
      (queryLevel path levels).Coincide levels (queryLevel other (levels + further))
  | 0, _ => ⟨.of_no_room, .of_no_room, .of_no_room, .of_no_room⟩
  | levels + 1, le => by
      have inner := queryLevel_coincide further paths levels (Nat.le_of_succ_le le)
      rw [Nat.add_right_comm]
      refine inner.outside ?_
      rw [queryLevel_path, queryLevel_path]
      exact paths.within le

/-! ## Whole texts -/

/-- Whole texts with less characters than there is room are read in the same way. -/
theorem run_whole_eq {α : Type} {name : Rule} {room : Nat} {first second : Parser α}
    (coincides : Coincides room 0 first second) {text : String} (short : text.length < room) :
    (Parser.whole name first).run text = (Parser.whole name second).run text := by
  have whole : Coincides room 0 (Parser.whole name first) (Parser.whole name second) :=
    (Coincides.blanks.bind fun _ => coincides.andThen fun _ => Coincides.endOfInput.map).rule
  have same := (whole false (Cursor.start text) Attempts.none (by simpa [Cursor.start])).1
  rw [Parser.run, Parser.run, same]

end Grammar

open Grammar

/-- Further levels make no difference to a query. -/
theorem Query.run_levels (text : String) (further : Nat) :
    (Parser.whole .wholeQuery (queryLevel (pathLevel (levelsFor text + further)).path
      (levelsFor text + further)).query).run text = Query.parse text := by
  have paths := (pathLevel_coincide further (levelsFor text)).path
  have queries := (queryLevel_coincide further paths (levelsFor text) (Nat.le_refl _)).query
  exact (run_whole_eq queries (Nat.lt_succ_self _)).symm

/-- Further levels make no difference to a document path. -/
theorem DocumentPath.run_levels (text : String) (further : Nat) :
    (Parser.whole .wholePath (documentPath (pathLevel (levelsFor text + further)).path)).run text =
      DocumentPath.parse text := by
  have paths := (pathLevel_coincide further (levelsFor text)).path
  exact (run_whole_eq (documentPath_coincides paths) (Nat.lt_succ_self _)).symm

end TreeQuery
