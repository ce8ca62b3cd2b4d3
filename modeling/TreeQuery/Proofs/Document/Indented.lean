import TreeQuery.Proofs.Document.Reloading
import TreeQuery.Proofs.Markup.Indentation

/-!
# Documents that are loaded from their pretty form

If no element of a document has both elements and texts among its children, then the document is
read from its pretty form whenever it is read from its compact form, and both give the same document
(`load_pretty_eq_ok_iff`).  So the compact form survives the pretty form exactly if the document is
durable (`load_pretty_compact_iff`).  Without carriage returns in texts and without white space but
spaces in attribute values that asks only for one root, and for attribute values with characters
that a document may hold (`load_pretty_iff`); and a document that has been read need not have these
(`load_pretty_exceptions`).
-/

set_option autoImplicit false

namespace TreeQuery.Fragment

open Markup

/-! ## What merging keeps -/

/-- What holds of two texts exactly if it holds of the one they make holds of all fragments exactly
if it does once one is put in front. -/
theorem all_prepend {member : Fragment → Bool}
    (joins : ∀ value next, member (.text (value ++ next)) =
      (member (.text value) && member (.text next))) (fragment : Fragment)
    (rest : List Fragment) :
    (prepend fragment rest).all member = (member fragment && rest.all member) := by
  unfold prepend
  split
  · rw [List.all_cons, List.all_cons, joins, Bool.and_assoc]
  · rw [List.all_cons]

theorem any_prepend {member : Fragment → Bool}
    (joins : ∀ value next, member (.text (value ++ next)) =
      (member (.text value) || member (.text next))) (fragment : Fragment)
    (rest : List Fragment) :
    (prepend fragment rest).any member = (member fragment || rest.any member) := by
  unfold prepend
  split
  · rw [List.any_cons, List.any_cons, joins, Bool.or_assoc]
  · rw [List.any_cons]

theorem isText_merged (fragment : Fragment) : fragment.merged.isText = fragment.isText := by
  cases fragment <;> simp [merged, isText]

theorem any_isElement_mergedAll (fragments : List Fragment) :
    (mergedAll fragments).any isElement = fragments.any isElement := by
  induction fragments with
  | nil => rw [mergedAll]
  | cons fragment rest ih =>
      rw [mergedAll, any_prepend (fun _ _ => rfl), ih, isElement_merged, List.any_cons]

theorem any_isText_mergedAll (fragments : List Fragment) :
    (mergedAll fragments).any isText = fragments.any isText := by
  induction fragments with
  | nil => rw [mergedAll]
  | cons fragment rest ih =>
      rw [mergedAll, any_prepend (fun _ _ => rfl), ih, isText_merged, List.any_cons]

/-- Where there are no texts, none are made one. -/
theorem mergedAll_eq_map {fragments : List Fragment} (noText : fragments.any isText = false) :
    mergedAll fragments = fragments.map merged := by
  induction fragments with
  | nil => rw [mergedAll, List.map_nil]
  | cons fragment rest ih =>
      rw [List.any_cons, Bool.or_eq_false_iff] at noText
      rw [mergedAll, ih noText.2, List.map_cons,
        prepend_of_isText_eq_false ((isText_merged fragment).trans noText.1)]

theorem allReadable_eq_all (fragments : List Fragment) :
    allReadable fragments = fragments.all isReadable := by
  induction fragments with
  | nil => rw [allReadable, List.all_nil]
  | cons fragment rest ih => rw [allReadable, ih, List.all_cons]

theorem allUnmixed_eq_all (fragments : List Fragment) :
    allUnmixed fragments = fragments.all isUnmixed := by
  induction fragments with
  | nil => rw [allUnmixed, List.all_nil]
  | cons fragment rest ih => rw [allUnmixed, ih, List.all_cons]

mutual
theorem isReadable_merged : (fragment : Fragment) →
    fragment.merged.isReadable = fragment.isReadable
  | .element name attributes children => by
      rw [merged, isReadable, isReadable, allReadable_mergedAll children]
  | .attribute name value => by rw [merged]
  | .text value => by rw [merged]

theorem allReadable_mergedAll : (fragments : List Fragment) →
    allReadable (mergedAll fragments) = allReadable fragments
  | [] => by rw [mergedAll]
  | fragment :: rest => by
      have joins : ∀ value next : String, (Fragment.text (value ++ next)).isReadable =
          ((Fragment.text value).isReadable && (Fragment.text next).isReadable) := by
        simp [isReadable]
      rw [mergedAll, allReadable_eq_all, all_prepend joins, ← allReadable_eq_all,
        isReadable_merged fragment, allReadable_mergedAll rest, allReadable]
end

mutual
theorem isUnmixed_merged : (fragment : Fragment) → fragment.merged.isUnmixed = fragment.isUnmixed
  | .element name attributes children => by
      rw [merged, isUnmixed, isUnmixed, any_isElement_mergedAll, any_isText_mergedAll,
        allUnmixed_mergedAll children]
  | .attribute name value => by rw [merged]
  | .text value => by rw [merged]

theorem allUnmixed_mergedAll : (fragments : List Fragment) →
    allUnmixed (mergedAll fragments) = allUnmixed fragments
  | [] => by rw [mergedAll]
  | fragment :: rest => by
      have joins : ∀ value next : String, (Fragment.text (value ++ next)).isUnmixed =
          ((Fragment.text value).isUnmixed && (Fragment.text next).isUnmixed) := by
        simp [isUnmixed]
      rw [mergedAll, allUnmixed_eq_all, all_prepend joins, ← allUnmixed_eq_all,
        isUnmixed_merged fragment, allUnmixed_mergedAll rest, allUnmixed]
end

mutual
/-- Where texts do not stand on lines of their own, merging does not change the pretty form. -/
theorem prettyAt_merged : (fragment : Fragment) → fragment.isUnmixed = true → (depth : Nat) →
    fragment.merged.prettyAt depth = fragment.prettyAt depth
  | .element name attributes children, unmixed, depth => by
      have same := compact_merged (.element name attributes children)
      rw [isUnmixed_iff] at unmixed
      rw [merged] at same ⊢
      rw [prettyAt, prettyAt, any_isElement_mergedAll, same]
      cases nested : children.any isElement with
      | false => rfl
      | true =>
          rw [mergedAll_eq_map (unmixed.1 nested),
            prettyAllAt_map_merged children unmixed.2 (depth + 1)]
  | .attribute name value, _, _ => by rw [merged]
  | .text value, _, _ => by rw [merged]

theorem prettyAllAt_map_merged : (fragments : List Fragment) → allUnmixed fragments = true →
    (depth : Nat) → prettyAllAt depth (fragments.map merged) = prettyAllAt depth fragments
  | [], _, _ => by rw [List.map_nil]
  | fragment :: rest, unmixed, depth => by
      rw [allUnmixed, Bool.and_eq_true] at unmixed
      rw [List.map_cons, prettyAllAt, prettyAllAt, prettyAt_merged fragment unmixed.1 depth,
        prettyAllAt_map_merged rest unmixed.2 depth]
end

/-! ## Line ends and white space -/

/-- Whether an attribute value has no white space but spaces. -/
def isUnbrokenGiven (given : String × String) : Bool := !given.2.toList.any isBreak

mutual
/-- Whether no text in a fragment has a carriage return, and no attribute value white space but
spaces. -/
def isUnbroken : Fragment → Bool
  | .element _ attributes children => attributes.all isUnbrokenGiven && allUnbroken children
  | .attribute name value => isUnbrokenGiven (name, value)
  | .text value => !value.toList.contains '\r'

def allUnbroken : List Fragment → Bool
  | [] => true
  | fragment :: rest => fragment.isUnbroken && allUnbroken rest
end

theorem allUnbroken_eq_all (fragments : List Fragment) :
    allUnbroken fragments = fragments.all isUnbroken := by
  induction fragments with
  | nil => rw [allUnbroken, List.all_nil]
  | cons fragment rest ih => rw [allUnbroken, ih, List.all_cons]

mutual
theorem isUnbroken_merged : (fragment : Fragment) →
    fragment.merged.isUnbroken = fragment.isUnbroken
  | .element name attributes children => by
      rw [merged, isUnbroken, isUnbroken, allUnbroken_mergedAll children]
  | .attribute name value => by rw [merged]
  | .text value => by rw [merged]

theorem allUnbroken_mergedAll : (fragments : List Fragment) →
    allUnbroken (mergedAll fragments) = allUnbroken fragments
  | [] => by rw [mergedAll]
  | fragment :: rest => by
      have joins : ∀ value next : String, (Fragment.text (value ++ next)).isUnbroken =
          ((Fragment.text value).isUnbroken && (Fragment.text next).isUnbroken) := by
        simp [isUnbroken, Bool.not_or]
      rw [mergedAll, allUnbroken_eq_all, all_prepend joins, ← allUnbroken_eq_all,
        isUnbroken_merged fragment, allUnbroken_mergedAll rest, allUnbroken]
end

theorem all_isDurableGiven_of_all_isUnbrokenGiven {attributes : List (String × String)}
    (unbroken : attributes.all isUnbrokenGiven = true) :
    attributes.all isDurableGiven = attributes.all isReadableGiven := by
  induction attributes with
  | nil => rfl
  | cons given rest ih =>
      rw [List.all_cons, Bool.and_eq_true, isUnbrokenGiven] at unbroken
      rw [List.all_cons, List.all_cons, ih unbroken.2, isDurableGiven, unbroken.1, Bool.and_true,
        isReadableGiven]

mutual
/-- Where nothing is normalized, what can be read again is durable. -/
theorem isDurable_of_isUnbroken : (fragment : Fragment) → fragment.isUnbroken = true →
    fragment.isDurable = fragment.isReadable
  | .element name attributes children, unbroken => by
      rw [isUnbroken, Bool.and_eq_true] at unbroken
      rw [isDurable, isReadable, all_isDurableGiven_of_all_isUnbrokenGiven unbroken.1,
        allDurable_of_allUnbroken children unbroken.2]
  | .attribute name value, _ => by rw [isDurable, isReadable]
  | .text value, unbroken => by
      rw [isUnbroken, Bool.not_eq_true'] at unbroken
      rw [isDurable, isReadable]
      exact keepsReturns_of_not_mem _ (by simpa using unbroken) false

theorem allDurable_of_allUnbroken : (fragments : List Fragment) →
    allUnbroken fragments = true → allDurable fragments = allReadable fragments
  | [], _ => by rw [allDurable, allReadable]
  | fragment :: rest, unbroken => by
      rw [allUnbroken, Bool.and_eq_true] at unbroken
      rw [allDurable, allReadable, isDurable_of_isUnbroken fragment unbroken.1,
        allDurable_of_allUnbroken rest unbroken.2]
end

end TreeQuery.Fragment

namespace TreeQuery.Document

open Markup Fragment

/-! ## Reading pretty forms -/

/-- The pretty form of a document. -/
def pretty (document : Document) : String := prettyAllAt 0 document.content

/-- The pretty form of a document is that of its document node. -/
theorem pretty_eq_pretty {Home : Type} (document : Document) (home : Home) :
    document.pretty = Node.pretty (fun _ => document.arena) ⟨home, 0⟩ := rfl

section Loaded

variable {uri other : Option String} {text : String} {document again : Document}
variable (loaded : Document.load uri text = .ok document)
include loaded

/-- A document that has been read is written from its first element on, fragment by fragment. -/
theorem map_merged_content : document.content = [] ∨ ∃ root more,
    document.content = root :: more ∧ root.merged.isElement = true ∧
      ∀ fragment ∈ root.merged :: more.map merged, fragment.Written := by
  obtain ⟨sound, settled, first⟩ := content_sound loaded
  cases parts : document.content with
  | nil => exact .inl rfl
  | cons root more =>
      rw [parts] at sound settled first
      refine .inr ⟨root, more, rfl, (isElement_merged root).trans (first root rfl), ?_⟩
      rw [← List.map_cons, List.forall_mem_map]
      exact fun fragment listed =>
        Sound.merged fragment (sound fragment listed) (settled fragment listed)

variable (unmixed : allUnmixed document.content = true)
include unmixed

/-- **The pretty form is read as the same document as the compact form.** -/
theorem load_pretty_eq_ok_iff : Document.load other document.pretty = .ok again ↔
    Document.load other document.compact = .ok again := by
  rw [load_compact_eq_ok_iff loaded, load_eq_ok, pretty, ← prettyAllAt_map_merged _ unmixed]
  rcases map_merged_content loaded with empty | ⟨root, more, parts, element, written⟩
  · rw [empty, List.map_nil, prettyAllAt, parse_empty]
    simp
  · rw [parts, allUnmixed, Bool.and_eq_true, ← isUnmixed_merged] at unmixed
    rw [parts, List.map_cons]
    constructor
    · rintro ⟨fragments, parsed, rfl⟩
      obtain ⟨alone, readable, rfl⟩ :=
        (parse_prettyAllAt_iff element written unmixed.1).mp parsed
      exact ⟨root, by rw [List.map_eq_nil_iff.mp alone], readable, rfl⟩
    · rintro ⟨_, ⟨⟩, readable, rfl⟩
      exact ⟨_, (parse_prettyAllAt_iff element written unmixed.1).mpr ⟨rfl, readable, rfl⟩, rfl⟩

/-- A document is read again from its pretty form, with the same compact form, exactly if it is
durable. -/
theorem load_pretty_compact_iff : (∃ again, Document.load other document.pretty = .ok again ∧
    again.compact = document.compact) ↔ document.isDurable = true := by
  simp only [load_pretty_eq_ok_iff loaded unmixed]
  constructor
  · rintro ⟨again, reloaded, kept⟩
    exact (compact_eq_iff_of_load_compact loaded reloaded).mp kept
  · intro durable
    obtain ⟨again, reloaded⟩ := exists_load_compact loaded durable
    exact ⟨again, reloaded, (compact_eq_iff_of_load_compact loaded reloaded).mpr durable⟩

/-- **Without anything to normalize a document is read again from its pretty form, with the same
compact form, exactly if it has one root and no attribute value has a character that no document may
hold.** -/
theorem load_pretty_iff (unbroken : allUnbroken document.content = true) :
    (∃ again, Document.load other document.pretty = .ok again ∧
        again.compact = document.compact) ↔
      document.content.length = 1 ∧ allReadable document.content = true := by
  rw [← allUnbroken_mergedAll] at unbroken
  rw [load_pretty_compact_iff loaded unmixed, isDurable, allDurable_of_allUnbroken _ unbroken,
    allReadable_mergedAll, Bool.and_eq_true, decide_eq_true_iff]

end Loaded

/-- A document with a nested element, with an element whose text is divided by a comment, and with
an empty one. -/
theorem load_pretty_iff_layouts :
    ∃ document, Document.load none "<r k='x &lt; y'><a>1<!-- -->&lt;</a> <b><c/></b></r>" =
        .ok document ∧ allUnmixed document.content = true ∧ allUnbroken document.content = true ∧
      ∃ again, Document.load (some "f") document.pretty = .ok again ∧
        again.compact = document.compact := by
  have checked : (Document.load none
      "<r k='x &lt; y'><a>1<!-- -->&lt;</a> <b><c/></b></r>").toOption.any (fun document =>
        allUnmixed document.content && allUnbroken document.content &&
          (document.content.length = 1 && allReadable document.content)) = true := by
    decide +kernel
  cases loaded : Document.load none "<r k='x &lt; y'><a>1<!-- -->&lt;</a> <b><c/></b></r>" with
  | error failure =>
      rw [loaded] at checked
      cases checked
  | ok document =>
      rw [loaded] at checked
      simp only [Except.toOption, Option.any_some, Bool.and_eq_true, decide_eq_true_iff] at checked
      obtain ⟨⟨unmixed, unbroken⟩, conditions⟩ := checked
      exact ⟨document, rfl, unmixed, unbroken,
        (load_pretty_iff loaded unmixed unbroken).mpr conditions⟩

/-- A document that is read and not durable is not read again from its pretty form. -/
theorem exists_unreadable {text : String} (checked : (Document.load none text).toOption.any
    (fun document => allUnmixed document.content && allUnbroken document.content &&
      !document.isDurable) = true) :
    ∃ document, Document.load none text = .ok document ∧ allUnmixed document.content = true ∧
      allUnbroken document.content = true ∧
        ¬∃ again, Document.load none document.pretty = .ok again ∧
          again.compact = document.compact := by
  cases loaded : Document.load none text with
  | error failure =>
      rw [loaded] at checked
      cases checked
  | ok document =>
      rw [loaded] at checked
      simp only [Except.toOption, Option.any_some, Bool.and_eq_true, Bool.not_eq_true'] at checked
      obtain ⟨⟨unmixed, unbroken⟩, exposed⟩ := checked
      refine ⟨document, rfl, unmixed, unbroken, fun reloaded => ?_⟩
      rw [(load_pretty_compact_iff loaded unmixed).mp reloaded] at exposed
      cases exposed

/-- A text is left behind a root that an entity closes, and an entity brings a character into an
attribute value that no document may hold; what is written then cannot be read again. -/
theorem load_pretty_exceptions :
    (∃ document, Document.load none "<!DOCTYPE r [<!ENTITY e '<b/></r>'>]><r>&e;tail" =
        .ok document ∧ allUnmixed document.content = true ∧
      allUnbroken document.content = true ∧
        ¬∃ again, Document.load none document.pretty = .ok again ∧
          again.compact = document.compact) ∧
    ∃ document, Document.load none "<!DOCTYPE a [<!ENTITY e '\x01'>]><a k='&e;'/>" =
        .ok document ∧ allUnmixed document.content = true ∧
      allUnbroken document.content = true ∧
        ¬∃ again, Document.load none document.pretty = .ok again ∧
          again.compact = document.compact :=
  ⟨exists_unreadable (by decide +kernel), exists_unreadable (by decide +kernel)⟩

end TreeQuery.Document
