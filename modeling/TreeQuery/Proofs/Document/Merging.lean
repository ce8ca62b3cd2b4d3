import Mathlib.Data.List.Chain
import TreeQuery.Proofs.Document.Copies
import TreeQuery.Proofs.Document.Spelling

/-!
# Merging of texts

Two texts that follow each other are written like one, so the compact form does not show where a
text was divided.  It shows everything else.  Once texts that follow each other are made one,
fragments with plain names and without empty texts are determined by their compact form
(`Fragment.compactAll_append_inj`, `Fragment.Plain.merged_eq_of_compact_eq`); and making them one
does not change that form (`Fragment.compactAll_mergedAll`).
-/

set_option autoImplicit false

namespace TreeQuery.Fragment

open Markup Text

/-! ## Merging -/

/-- Puts a fragment in front of others; a text and a text that the others begin with become
one. -/
def prepend : Fragment → List Fragment → List Fragment
  | .text value, .text next :: rest => .text (value ++ next) :: rest
  | fragment, rest => fragment :: rest

mutual
/-- The fragment with the texts that follow each other in it made one. -/
def merged : Fragment → Fragment
  | .element name attributes children => .element name attributes (mergedAll children)
  | .attribute name value => .attribute name value
  | .text value => .text value

/-- The fragments with the texts that follow each other, among them and in them, made one. -/
def mergedAll : List Fragment → List Fragment
  | [] => []
  | fragment :: rest => prepend fragment.merged (mergedAll rest)
end

/-- Whether a fragment is a text. -/
def isText : Fragment → Bool
  | .text _ => true
  | _ => false

theorem prepend_of_isText_eq_false {fragment : Fragment} (other : fragment.isText = false)
    (rest : List Fragment) : prepend fragment rest = fragment :: rest := by
  cases fragment with
  | text value => cases other
  | _ => rfl

theorem isText_eq_false {fragment : Fragment} (element : fragment.isElement = true) :
    fragment.isText = false := by
  cases fragment with
  | text value => cases element
  | _ => rfl

theorem isElement_merged (fragment : Fragment) :
    fragment.merged.isElement = fragment.isElement := by
  cases fragment <;> simp [merged, isElement]

theorem isAttribute_merged (fragment : Fragment) :
    fragment.merged.isAttribute = fragment.isAttribute := by
  cases fragment <;> simp [merged, isAttribute]

theorem kind_merged (fragment : Fragment) : fragment.merged.kind = fragment.kind := by
  cases fragment <;> simp [merged, kind]

/-! ## Merging does not change the compact form -/

theorem compactAll_prepend (fragment : Fragment) (rest : List Fragment) :
    compactAll (prepend fragment rest) = fragment.compact ++ compactAll rest := by
  unfold prepend
  split
  · rw [compactAll, compactAll, compact, compact, compact, ← String.append_assoc]
    congr 1
    rw [← String.toList_inj]
    simp
  · rw [compactAll]

theorem prepend_ne_nil (fragment : Fragment) (rest : List Fragment) :
    prepend fragment rest ≠ [] := by
  unfold prepend
  split <;> exact List.cons_ne_nil _ _

theorem mergedAll_eq_nil {fragments : List Fragment} :
    mergedAll fragments = [] ↔ fragments = [] := by
  cases fragments with
  | nil => exact ⟨fun _ => rfl, fun _ => by rw [mergedAll]⟩
  | cons fragment rest =>
      rw [mergedAll]
      exact ⟨fun empty => absurd empty (prepend_ne_nil _ _), nofun⟩

/-- The compact form of an element, whether or not there is anything in it. -/
theorem compact_element (name : String) (attributes : List (String × String))
    (children : List Fragment) :
    (Fragment.element name attributes children).compact =
      writeTag name attributes ++
        if children = [] then "/>" else ">" ++ compactAll children ++ "</" ++ name ++ ">" := by
  cases children with
  | nil => rw [compact, if_pos rfl]
  | cons child rest =>
      rw [compact, if_neg (List.cons_ne_nil _ _), compactAll]
      simp only [String.append_assoc]

mutual
theorem compact_merged : (fragment : Fragment) → fragment.merged.compact = fragment.compact
  | .element name attributes children => by
      rw [merged, compact_element, compact_element, compactAll_mergedAll children]
      simp only [mergedAll_eq_nil]
  | .attribute name value => by rw [merged]
  | .text value => by rw [merged]

/-- **Merging does not change the compact form.** -/
theorem compactAll_mergedAll : (fragments : List Fragment) →
    compactAll (mergedAll fragments) = compactAll fragments
  | [] => by rw [mergedAll]
  | fragment :: rest => by
      rw [mergedAll, compactAll_prepend, compact_merged fragment, compactAll_mergedAll rest,
        compactAll]
end

/-! ## Plain fragments -/

/-- Whether names are plain, no text is empty, and no attribute stands among children. -/
inductive Plain : Fragment → Prop where
  | text {value : String} (filled : value ≠ "") : Plain (.text value)
  | attribute {name : String} (value : String) (named : isPlainName name = true) :
      Plain (.attribute name value)
  | element {name : String} {attributes : List (String × String)} {children : List Fragment}
      (named : isPlainName name = true)
      (given : ∀ given ∈ attributes, isPlainName given.1 = true)
      (below : ∀ child ∈ children, child.isAttribute = false)
      (inside : ∀ child ∈ children, child.Plain) :
      Plain (.element name attributes children)

/-- Whether no two texts follow each other. -/
def Apart (fragments : List Fragment) : Prop :=
  fragments.IsChain fun first second => ¬(first.isText = true ∧ second.isText = true)

/-- Whether no two texts follow each other in a fragment. -/
inductive Merged : Fragment → Prop where
  | text (value : String) : Merged (.text value)
  | attribute (name value : String) : Merged (.attribute name value)
  | element {name : String} {attributes : List (String × String)} {children : List Fragment}
      (apart : Apart children) (inside : ∀ child ∈ children, child.Merged) :
      Merged (.element name attributes children)

/-- What holds of a fragment, of all others, and of all texts that are longer than one of
these, holds of all when the fragment is put in front. -/
theorem forall_mem_prepend {holds : Fragment → Prop} {fragment : Fragment} {rest : List Fragment}
    (longer : ∀ {value next : String}, holds (.text value) → holds (.text next) →
      holds (.text (value ++ next)))
    (first : holds fragment) (others : ∀ other ∈ rest, holds other) :
    ∀ other ∈ prepend fragment rest, holds other := by
  unfold prepend
  split
  · obtain ⟨next, others⟩ := List.forall_mem_cons.mp others
    exact List.forall_mem_cons.mpr ⟨longer first next, others⟩
  · exact List.forall_mem_cons.mpr ⟨first, others⟩

theorem Apart.prepend {rest : List Fragment} (apart : Apart rest) (fragment : Fragment) :
    Apart (prepend fragment rest) := by
  unfold Fragment.prepend
  split
  · rename_i value next rest
    refine List.isChain_cons.mpr ⟨fun other head => ?_, apart.tail⟩
    exact (List.isChain_cons.mp apart).1 other head
  · rename_i notBoth
    refine List.isChain_cons.mpr ⟨fun other head both => ?_, apart⟩
    cases fragment with
    | text value =>
        cases other with
        | text next =>
            obtain ⟨further, rfl⟩ := List.head?_eq_some_iff.mp head
            exact notBoth value next further rfl rfl
        | _ => exact nomatch both.2
    | _ => exact nomatch both.1

mutual
theorem isMerged_merged : (fragment : Fragment) → fragment.merged.Merged
  | .element name attributes children => by
      rw [merged]
      exact .element (isMerged_mergedAll children).1 (isMerged_mergedAll children).2
  | .attribute name value => by
      rw [merged]
      exact .attribute name value
  | .text value => by
      rw [merged]
      exact .text value

/-- **Merging leaves no two texts in a row.** -/
theorem isMerged_mergedAll : (fragments : List Fragment) →
    Apart (mergedAll fragments) ∧ ∀ fragment ∈ mergedAll fragments, fragment.Merged
  | [] => by
      rw [mergedAll]
      exact ⟨.nil, nofun⟩
  | fragment :: rest => by
      obtain ⟨apart, inside⟩ := isMerged_mergedAll rest
      rw [mergedAll]
      exact ⟨apart.prepend _,
        forall_mem_prepend (fun _ _ => .text _) (isMerged_merged fragment) inside⟩
end

theorem isAttribute_mergedAll {fragments : List Fragment}
    (below : ∀ fragment ∈ fragments, fragment.isAttribute = false) :
    ∀ fragment ∈ mergedAll fragments, fragment.isAttribute = false := by
  induction fragments with
  | nil =>
      rw [mergedAll]
      exact nofun
  | cons fragment rest ih =>
      obtain ⟨first, others⟩ := List.forall_mem_cons.mp below
      rw [mergedAll]
      exact forall_mem_prepend (fun _ _ => rfl) ((isAttribute_merged fragment).trans first)
        (ih others)

mutual
/-- **Merging keeps fragments plain.** -/
theorem Plain.merged : (fragment : Fragment) → fragment.Plain → fragment.merged.Plain
  | .element name attributes children, .element named given below inside => by
      rw [Fragment.merged]
      exact .element named given (isAttribute_mergedAll below) (Plain.mergedAll children inside)
  | .attribute name value, plain => by
      rw [Fragment.merged]
      exact plain
  | .text value, plain => by
      rw [Fragment.merged]
      exact plain

theorem Plain.mergedAll : (fragments : List Fragment) → (∀ fragment ∈ fragments, fragment.Plain) →
    ∀ fragment ∈ mergedAll fragments, fragment.Plain
  | [], _ => by
      rw [Fragment.mergedAll]
      exact nofun
  | fragment :: rest, plain => by
      obtain ⟨first, others⟩ := List.forall_mem_cons.mp plain
      rw [Fragment.mergedAll]
      refine forall_mem_prepend ?_ (Plain.merged fragment first) (Plain.mergedAll rest others)
      rintro value next ⟨filled⟩ _
      exact .text fun empty => filled (String.append_eq_empty_iff.mp empty).1
end

/-! ## The compact form shows the fragments -/

theorem toList_compact_element (name : String) (attributes : List (String × String))
    (children : List Fragment) :
    (Fragment.element name attributes children).compact.toList =
      spellTag name attributes ++
        if children = [] then ['/', '>']
        else '>' :: ((compactAll children).toList ++ '<' :: '/' :: (name.toList ++ ['>'])) := by
  rw [compact_element, String.toList_append, toList_writeTag]
  split <;> simp

/-- Whether what follows the children of an element follows: nothing, or a closing tag. -/
def Closes (after : List Char) : Prop := after = [] ∨ ∃ rest, after = '<' :: '/' :: rest

theorem Closes.stops {after : List Char} (closes : Closes after) : Stops after := by
  rintro c first
  rcases closes with rfl | ⟨rest, rfl⟩
  · cases first
  · obtain rfl := Option.some.inj first
    decide

theorem exists_cons_of_isPlainName {name : String} (named : isPlainName name = true) :
    ∃ c rest, name.toList = c :: rest ∧ endsName c = false := by
  rw [isPlainName, Bool.and_eq_true, Bool.not_eq_true', String.isEmpty_eq_false_iff] at named
  cases letters : name.toList with
  | nil => exact absurd (String.toList_eq_nil_iff.mp letters) named.1
  | cons c rest =>
      rw [letters, List.all_cons, Bool.and_eq_true, Bool.not_eq_true'] at named
      exact ⟨c, rest, rfl, named.2.1⟩

/-- An element begins with an angle bracket that is not the one of a closing tag. -/
theorem compact_element_begins {name : String} (named : isPlainName name = true)
    (attributes : List (String × String)) (children : List Fragment) :
    ∃ c rest, (Fragment.element name attributes children).compact.toList = '<' :: c :: rest ∧
      endsName c = false := by
  obtain ⟨c, rest, letters, inside⟩ := exists_cons_of_isPlainName named
  rw [toList_compact_element, spellTag, letters]
  exact ⟨c, _, rfl, inside⟩

/-- What begins with an element stops the text before it. -/
theorem stops_element {name : String} (named : isPlainName name = true)
    (attributes : List (String × String)) (children : List Fragment) (after : List Char) :
    Stops ((Fragment.element name attributes children).compact.toList ++ after) := by
  obtain ⟨c, rest, begins, _⟩ := compact_element_begins named attributes children
  rw [begins]
  intro d first
  obtain rfl := Option.some.inj first
  decide

/-- A text that is not empty is not written like anything that stops texts. -/
theorem not_stops_text {value : String} (filled : value ≠ "") (after : List Char) :
    ¬Stops ((Fragment.text value).compact.toList ++ after) := by
  intro stops
  obtain ⟨c, rest, letters⟩ : ∃ c rest, value.toList = c :: rest :=
    List.exists_cons_of_ne_nil fun empty => filled (String.toList_eq_nil_iff.mp empty)
  rw [compact, toList_escape, letters, List.flatMap_cons, List.append_assoc] at stops
  exact stops.not_append rfl

/-- Fragments as the children of a plain and merged element are. -/
structure Legible (fragments : List Fragment) : Prop where
  plain : ∀ fragment ∈ fragments, fragment.Plain
  merged : ∀ fragment ∈ fragments, fragment.Merged
  below : ∀ fragment ∈ fragments, fragment.isAttribute = false
  apart : Apart fragments

theorem Legible.tail {fragment : Fragment} {rest : List Fragment}
    (legible : Legible (fragment :: rest)) : Legible rest where
  plain := (List.forall_mem_cons.mp legible.plain).2
  merged := (List.forall_mem_cons.mp legible.merged).2
  below := (List.forall_mem_cons.mp legible.below).2
  apart := legible.apart.tail

theorem Legible.head {fragment : Fragment} {rest : List Fragment}
    (legible : Legible (fragment :: rest)) : Legible [fragment] where
  plain := List.forall_mem_singleton.mpr (legible.plain _ List.mem_cons_self)
  merged := List.forall_mem_singleton.mpr (legible.merged _ List.mem_cons_self)
  below := List.forall_mem_singleton.mpr (legible.below _ List.mem_cons_self)
  apart := .singleton _

theorem Legible.children {name : String} {attributes : List (String × String)}
    {children : List Fragment} (plain : (Fragment.element name attributes children).Plain)
    (merged : (Fragment.element name attributes children).Merged) : Legible children := by
  obtain _ | _ | ⟨_, _, below, inside⟩ := plain
  obtain _ | _ | ⟨apart, mergedInside⟩ := merged
  exact ⟨inside, mergedInside, below, apart⟩

theorem Legible.not_closes {fragment : Fragment} {rest : List Fragment}
    (legible : Legible (fragment :: rest)) (after : List Char) :
    ¬Closes ((compactAll (fragment :: rest)).toList ++ after) := by
  intro closes
  rw [compactAll, String.toList_append, List.append_assoc] at closes
  cases legible.plain fragment List.mem_cons_self with
  | text filled => exact not_stops_text filled _ closes.stops
  | «attribute» => exact nomatch legible.below _ List.mem_cons_self
  | @element name attributes children named _ _ _ =>
      obtain ⟨c, rest, begins, inside⟩ := compact_element_begins named attributes children
      rw [begins] at closes
      rcases closes with empty | ⟨further, closes⟩
      · cases empty
      · rw [(List.cons.inj (List.cons.inj closes).2).1] at inside
        cases inside

/-- What follows a text among children stops the text. -/
theorem Legible.stops {fragment : Fragment} {rest : List Fragment}
    (legible : Legible (fragment :: rest)) {after : List Char} (closes : Closes after)
    (text : fragment.isText = true) : Stops ((compactAll rest).toList ++ after) := by
  cases rest with
  | nil =>
      rw [compactAll]
      exact closes.stops
  | cons other further =>
      rw [compactAll, String.toList_append, List.append_assoc]
      cases legible.tail.plain other List.mem_cons_self with
      | text => exact absurd ⟨text, rfl⟩ (List.isChain_cons_cons.mp legible.apart).1
      | «attribute» => exact nomatch legible.tail.below _ List.mem_cons_self
      | element named => exact stops_element named _ _ _

/-- An element is determined by its compact form, and so is what follows it, if its children are
determined by theirs. -/
theorem element_append_inj {name other : String} {attributes others : List (String × String)}
    {children further : List Fragment} {after next : List Char}
    (plain : (Fragment.element name attributes children).Plain)
    (plainToo : (Fragment.element other others further).Plain)
    (determined : ∀ {after next : List Char}, Closes after → Closes next →
      (compactAll children).toList ++ after = (compactAll further).toList ++ next →
        children = further ∧ after = next)
    (same : (Fragment.element name attributes children).compact.toList ++ after =
      (Fragment.element other others further).compact.toList ++ next) :
    Fragment.element name attributes children = .element other others further ∧ after = next := by
  obtain _ | _ | ⟨named, given, _, _⟩ := plain
  obtain _ | _ | ⟨namedToo, givenToo, _, _⟩ := plainToo
  have ends : ∀ (children : List Fragment) (name : String) (after : List Char),
      EndsTag ((if children = [] then ['/', '>'] else '>' :: ((compactAll children).toList ++
        '<' :: '/' :: (name.toList ++ ['>']))) ++ after) := by
    intro children name after
    split
    · exact ⟨_, _, rfl, .inl rfl⟩
    · exact ⟨_, _, rfl, .inr rfl⟩
  rw [toList_compact_element, toList_compact_element, List.append_assoc,
    List.append_assoc] at same
  obtain ⟨rfl, rfl, sameEnd⟩ :=
    tag_append_inj named namedToo given givenToo (ends _ _ _) (ends _ _ _) same
  by_cases empty : children = []
  · by_cases emptyToo : further = []
    · rw [if_pos empty, if_pos emptyToo] at sameEnd
      exact ⟨by rw [empty, emptyToo], List.append_cancel_left sameEnd⟩
    · rw [if_pos empty, if_neg emptyToo] at sameEnd
      exact absurd (List.cons.inj sameEnd).1 (by decide)
  · by_cases emptyToo : further = []
    · rw [if_neg empty, if_pos emptyToo] at sameEnd
      exact absurd (List.cons.inj sameEnd).1 (by decide)
    · rw [if_neg empty, if_neg emptyToo, List.cons_append, List.cons_append,
        List.append_assoc, List.append_assoc] at sameEnd
      obtain ⟨sameChildren, sameClosing⟩ :=
        determined (.inr ⟨_, rfl⟩) (.inr ⟨_, rfl⟩) (List.cons.inj sameEnd).2
      have closing : '<' :: '/' :: (name.toList ++ ['>']) ++ after =
        '<' :: '/' :: (name.toList ++ ['>']) ++ next := sameClosing
      exact ⟨by rw [sameChildren], List.append_cancel_left closing⟩

mutual
/-- An element is determined by its compact form, and so is what follows it; a text too, if what
follows stops it. -/
theorem compact_append_inj : (first second : Fragment) → Legible [first] → Legible [second] →
    ∀ {after next : List Char}, (first.isText = true → Stops after) →
      (second.isText = true → Stops next) →
      first.compact.toList ++ after = second.compact.toList ++ next →
        first = second ∧ after = next
  | .attribute _ _, _ => fun legible _ _ _ _ _ _ => nomatch legible.below _ List.mem_cons_self
  | .text _, .attribute _ _ =>
      fun _ legible _ _ _ _ _ => nomatch legible.below _ List.mem_cons_self
  | .element _ _ _, .attribute _ _ =>
      fun _ legible _ _ _ _ _ => nomatch legible.below _ List.mem_cons_self
  | .text value, .text other => by
      intro _ _ after next stops stopsToo same
      rw [compact, compact, toList_escape, toList_escape] at same
      obtain ⟨sameText, sameAfter⟩ := escaped_append_inj (stops rfl) (stopsToo rfl) same
      exact ⟨by rw [String.toList_inj.mp sameText], sameAfter⟩
  | .text value, .element name attributes children => by
      intro legible legibleToo after next _ _ same
      obtain ⟨filled⟩ := legible.plain _ List.mem_cons_self
      obtain _ | _ | ⟨named, _, _, _⟩ := legibleToo.plain _ List.mem_cons_self
      have stops := stops_element named attributes children next
      rw [← same] at stops
      exact absurd stops (not_stops_text filled _)
  | .element name attributes children, .text value => by
      intro legible legibleToo after next _ _ same
      obtain _ | _ | ⟨named, _, _, _⟩ := legible.plain _ List.mem_cons_self
      obtain ⟨filled⟩ := legibleToo.plain _ List.mem_cons_self
      have stops := stops_element named attributes children after
      rw [same] at stops
      exact absurd stops (not_stops_text filled _)
  | .element name attributes children, .element other others further => by
      intro legible legibleToo after next _ _ same
      have plain := legible.plain _ List.mem_cons_self
      have plainToo := legibleToo.plain _ List.mem_cons_self
      have inside := Legible.children plain (legible.merged _ List.mem_cons_self)
      have insideToo := Legible.children plainToo (legibleToo.merged _ List.mem_cons_self)
      exact element_append_inj plain plainToo
        (compactAll_append_inj children further inside insideToo) same

/-- **Plain and merged children are determined by their compact form.** -/
theorem compactAll_append_inj : (first second : List Fragment) → Legible first →
    Legible second → {after next : List Char} → Closes after → Closes next →
    (compactAll first).toList ++ after = (compactAll second).toList ++ next →
      first = second ∧ after = next
  | [], [], _, _, _, _, _, _, same => by
      rw [compactAll] at same
      exact ⟨rfl, same⟩
  | [], _ :: _, _, legible, _, _, closes, _, same => by
      rw [compactAll, String.toList_empty, List.nil_append] at same
      rw [same] at closes
      exact absurd closes (legible.not_closes _)
  | _ :: _, [], legible, _, _, _, _, closes, same => by
      rw [compactAll.eq_1, String.toList_empty, List.nil_append] at same
      rw [← same] at closes
      exact absurd closes (legible.not_closes _)
  | fragment :: rest, other :: further, legible, legibleToo, _, _, closes, closesToo, same => by
      rw [compactAll, compactAll, String.toList_append, String.toList_append, List.append_assoc,
        List.append_assoc] at same
      obtain ⟨sameFirst, sameRest⟩ := compact_append_inj fragment other legible.head
        legibleToo.head (legible.stops closes) (legibleToo.stops closesToo) same
      obtain ⟨sameOthers, sameAfter⟩ := compactAll_append_inj rest further legible.tail
        legibleToo.tail closes closesToo sameRest
      exact ⟨by rw [sameFirst, sameOthers], sameAfter⟩
end

/-! ## Attributes by themselves -/

theorem exists_of_isAttribute {fragment : Fragment} (isAttribute : fragment.isAttribute = true) :
    ∃ name value, fragment = .attribute name value := by
  cases fragment with
  | «attribute» name value => exact ⟨name, value, rfl⟩
  | text => cases isAttribute
  | element => cases isAttribute

theorem compactAll_singleton (fragment : Fragment) : compactAll [fragment] = fragment.compact := by
  rw [compactAll, compactAll, String.append_empty]

theorem toList_compact_attribute (name value : String) :
    (Fragment.attribute name value).compact.toList =
      (name.toList ++ ['=']) ++ '\x22' :: value.toList.flatMap escapeChar ++ ['\x22'] := by
  simp [compact, writeAttribute]

/-- What is no attribute does not end with a quote. -/
theorem getLast?_compact_ne {fragment : Fragment} (plain : fragment.isAttribute = false) :
    fragment.compact.toList.getLast? ≠ some '\x22' := by
  cases fragment with
  | «attribute» name value => cases plain
  | text value =>
      rw [compact, toList_escape]
      intro last
      exact quote_not_mem_escaped _ (List.mem_of_getLast? last)
  | element name attributes children =>
      cases children with
      | nil => simp [compact, List.getLast?_append]
      | cons child rest =>
          rw [compact, String.toList_append, List.getLast?_append]
          simp

theorem getLast?_compactAll_ne {fragments : List Fragment}
    (plain : ∀ fragment ∈ fragments, fragment.isAttribute = false) :
    (compactAll fragments).toList.getLast? ≠ some '\x22' := by
  induction fragments with
  | nil => simp [compactAll]
  | cons fragment rest ih =>
      obtain ⟨first, others⟩ := List.forall_mem_cons.mp plain
      rw [compactAll, String.toList_append, List.getLast?_append]
      have later := ih others
      cases last : (compactAll rest).toList.getLast? with
      | none =>
          rw [Option.none_or]
          exact getLast?_compact_ne first
      | some c =>
          rw [last] at later
          exact later

/-- An attribute is not written like anything else: it ends with a quote. -/
theorem compact_attribute_ne (name value : String) {fragments : List Fragment}
    (plain : ∀ fragment ∈ fragments, fragment.isAttribute = false) :
    (Fragment.attribute name value).compact ≠ compactAll fragments := by
  intro same
  apply getLast?_compactAll_ne plain
  rw [← same, toList_compact_attribute, List.getLast?_append]
  rfl

/-- The form of an attribute shows its name and its value: its last two quotes are those around
the value. -/
theorem compact_attribute_inj {name other value otherValue : String}
    (same : (Fragment.attribute name value).compact =
      (Fragment.attribute other otherValue).compact) : name = other ∧ value = otherValue := by
  have characters := congrArg String.toList same
  rw [toList_compact_attribute, toList_compact_attribute] at characters
  obtain ⟨names, values⟩ := last_append_inj (quote_not_mem_escaped _) (quote_not_mem_escaped _)
    (List.append_cancel_right characters)
  have stops : Stops [] := by
    intro c first
    cases first
  have sameValue := escaped_append_inj stops stops (congrArg (· ++ []) values)
  exact ⟨String.toList_inj.mp (List.append_cancel_right names), String.toList_inj.mp sameValue.1⟩

/-- **Plain fragments with one compact form are the same up to where texts are divided.** -/
theorem Plain.merged_eq_of_compact_eq {first second : Fragment} (plain : first.Plain)
    (plainToo : second.Plain) (same : first.compact = second.compact) :
    first.merged = second.merged := by
  have legible : ∀ {fragment : Fragment}, fragment.Plain → fragment.isAttribute = false →
      Legible [fragment.merged] := by
    intro fragment plain other
    exact ⟨List.forall_mem_singleton.mpr (plain.merged _),
      List.forall_mem_singleton.mpr (isMerged_merged fragment),
      List.forall_mem_singleton.mpr ((isAttribute_merged fragment).trans other), .singleton _⟩
  -- an attribute is written like no other fragment
  have alone : ∀ {fragment other : Fragment}, fragment.isAttribute = true →
      other.isAttribute = false → fragment.compact ≠ other.compact := by
    intro fragment other isAttribute plain same
    obtain ⟨name, value, rfl⟩ := exists_of_isAttribute isAttribute
    apply compact_attribute_ne name value (List.forall_mem_singleton.mpr plain)
    rw [same, compactAll_singleton]
  cases kind : first.isAttribute with
  | true =>
      cases kindToo : second.isAttribute with
      | true =>
          obtain ⟨name, value, rfl⟩ := exists_of_isAttribute kind
          obtain ⟨other, otherValue, rfl⟩ := exists_of_isAttribute kindToo
          obtain ⟨rfl, rfl⟩ := compact_attribute_inj same
          rfl
      | false => exact absurd same (alone kind kindToo)
  | false =>
      cases kindToo : second.isAttribute with
      | true => exact absurd same.symm (alone kindToo kind)
      | false =>
          have ended : Stops [] := nofun
          rw [← compact_merged first, ← compact_merged second] at same
          exact (compact_append_inj _ _ (legible plain kind) (legible plainToo kindToo)
            (fun _ => ended) (fun _ => ended) (by rw [same])).1

end TreeQuery.Fragment
