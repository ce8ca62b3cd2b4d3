import TreeQuery.Proofs.Document.Merging
import TreeQuery.Proofs.Markup.Rereading
import TreeQuery.Proofs.Markup.Soundness

/-!
# Written fragments

A fragment that has been read and whose texts are merged is written (`Fragment.Sound.mergedAll`): its
names are local and distinct where they have to be, its texts can be read, and no two of them follow
each other.  Written fragments stay so when they are reread (`Fragment.Written.rereadAll`), and they
are determined by their compact form (`Fragment.Written.legible`).
-/

set_option autoImplicit false

namespace TreeQuery

open Markup
open Text (Position escapeChar)

/-! ## Written fragments -/

namespace Fragment

/-- A fragment as reading and merging leave it: names are local, no two attributes share one, texts
can be read, and no two of them follow each other. -/
inductive Written : Fragment → Prop where
  | text {value : String} (content : isContent value = true) : Written (.text value)
  | element {name : String} {attributes : List (String × String)} {children : List Fragment}
      (named : isLocalName name = true) (given : attributes.all isGiven = true)
      (names : (attributes.map (·.1)).Nodup) (apart : Apart children)
      (inside : ∀ child ∈ children, child.Written) :
      Written (.element name attributes children)

theorem isContent_append {first second : String} (content : isContent first = true)
    (further : isContent second = true) : isContent (first ++ second) = true := by
  rw [isContent, Bool.and_eq_true, Bool.not_eq_true', Text.allBlank] at content further ⊢
  rw [String.toList_append, List.all_append, List.all_append, content.1, content.2, further.1]
  exact ⟨rfl, rfl⟩

mutual
/-- What has been read is written once it is merged. -/
theorem Sound.merged : (fragment : Fragment) → fragment.Sound → fragment.Settled →
    fragment.merged.Written
  | .element name attributes children, .element named given inside, settled => by
      obtain _ | _ | ⟨names, plain, below⟩ := settled
      rw [Fragment.merged]
      exact .element named (List.all_eq_true.mpr given) names (isMerged_mergedAll children).1
        (Sound.mergedAll children inside below)
  | .text value, .text content, _ => by
      rw [Fragment.merged]
      exact .text content

theorem Sound.mergedAll : (fragments : List Fragment) → (∀ fragment ∈ fragments, fragment.Sound) →
    (∀ fragment ∈ fragments, fragment.Settled) →
      ∀ fragment ∈ mergedAll fragments, fragment.Written
  | [], _, _ => by
      rw [Fragment.mergedAll]
      exact List.forall_mem_nil _
  | fragment :: rest, sound, settled => by
      obtain ⟨first, others⟩ := List.forall_mem_cons.mp sound
      obtain ⟨firstSettled, restSettled⟩ := List.forall_mem_cons.mp settled
      rw [Fragment.mergedAll]
      refine forall_mem_prepend ?_ (Sound.merged fragment first firstSettled)
        (Sound.mergedAll rest others restSettled)
      rintro value next ⟨content⟩ ⟨further⟩
      exact .text (isContent_append content further)
end

section Apart

variable {fragment : Fragment} {rest : List Fragment} (apart : Apart (fragment :: rest))
include apart

/-- No text follows a text. -/
theorem Apart.isText_head (text : fragment.isText = true) :
    ∀ next ∈ rest.head?, next.isText = false :=
  fun next head => Bool.eq_false_iff.mpr fun both =>
    (List.isChain_cons.mp apart).1 next head ⟨text, both⟩

/-- Where a text follows, there is no text that could still grow. -/
theorem Apart.free {text : String} (settled : fragment.isText = false → text = "") :
    ∀ next ∈ rest.head?, next.isText = true → text = "" := by
  intro next head isText
  refine settled (Bool.eq_false_iff.mpr fun both => ?_)
  rw [apart.isText_head both next head] at isText
  cases isText

end Apart

theorem isText_reread (fragment : Fragment) : fragment.reread.isText = fragment.isText := by
  cases fragment <;> simp [reread, isText]

theorem isContent_reread {text : String} (content : isContent text = true) :
    isContent (String.ofList (rereadFrom [] false text.toList)) = true := by
  rw [isContent, Bool.and_eq_true, Bool.not_eq_true'] at content
  rw [isContent, allBlank_rereadFrom content.2, String.toList_ofList,
    (rereadFrom_eq text.toList).1 [] false (by simp), List.reverse_nil, List.nil_append,
    all_rereadText _ _ content.1]
  rfl

theorem Apart.rereadAll {fragments : List Fragment} (apart : Apart fragments) :
    Apart (rereadAll fragments) := by
  rw [rereadAll_eq_map, Apart, List.isChain_map]
  rw [Apart] at apart
  simpa only [isText_reread] using apart

mutual
theorem Written.reread : (fragment : Fragment) → fragment.Written → fragment.reread.Written
  | .element name attributes children, .element named given names apart inside => by
      rw [Fragment.reread]
      refine .element named ?_ ?_ apart.rereadAll (Written.rereadAll children inside)
      · rw [List.all_map]
        exact given
      · rw [List.map_map]
        exact names
  | .text value, .text content => by
      rw [Fragment.reread]
      exact .text (isContent_reread content)

theorem Written.rereadAll : (fragments : List Fragment) →
    (∀ fragment ∈ fragments, fragment.Written) →
      ∀ fragment ∈ rereadAll fragments, fragment.Written
  | [], _ => by
      rw [Fragment.rereadAll]
      exact List.forall_mem_nil _
  | fragment :: rest, written => by
      obtain ⟨first, others⟩ := List.forall_mem_cons.mp written
      rw [Fragment.rereadAll]
      exact List.forall_mem_cons.mpr
        ⟨Written.reread fragment first, Written.rereadAll rest others⟩
end

/-! ## What is written is plain and settled -/

theorem continuesName_of_endsName {c : Char} (ends : endsName c = true) :
    continuesName c = false := by
  rw [endsName, Bool.or_eq_true, isSpace, List.contains_iff_mem] at ends
  simp only [Bool.or_eq_true, decide_eq_true_iff, List.mem_cons, List.not_mem_nil,
    or_false] at ends
  rcases ends with (((rfl | rfl) | rfl) | rfl) | rfl | rfl | rfl | rfl | rfl | rfl | rfl <;> decide

/-- No local name has a character by which names end. -/
theorem isPlainName_of_isLocalName {name : String} (named : isLocalName name = true) :
    isPlainName name = true := by
  rw [isLocalName, Bool.and_eq_true] at named
  rw [isPlainName, Bool.and_eq_true, Bool.not_eq_true', String.isEmpty_eq_false_iff]
  constructor
  · rintro rfl
    exact absurd named.1 Bool.false_ne_true
  · refine List.all_eq_true.mpr fun c listed => ?_
    rw [Bool.not_eq_true']
    refine Bool.eq_false_iff.mpr fun ends => ?_
    have continues := List.all_eq_true.mp named.2 c listed
    rw [continuesName_of_endsName ends] at continues
    cases continues

theorem isPlainName_of_all_isGiven {attributes : List (String × String)}
    (given : attributes.all isGiven = true) :
    ∀ pair ∈ attributes, isPlainName pair.1 = true := by
  intro pair listed
  have named := List.all_eq_true.mp given pair listed
  rw [isGiven, Bool.and_eq_true] at named
  exact isPlainName_of_isLocalName named.1

namespace Written

section Element

variable {name : String} {attributes : List (String × String)} {children : List Fragment}
variable (written : (Fragment.element name attributes children).Written)
include written

theorem named : isLocalName name = true := by
  cases written
  assumption

theorem given : attributes.all isGiven = true := by
  cases written
  assumption

theorem apart : Apart children := by
  cases written
  assumption

theorem inside : ∀ child ∈ children, child.Written := by
  cases written
  assumption

end Element

theorem isAttribute {fragment : Fragment} (written : fragment.Written) :
    fragment.isAttribute = false := by
  cases written <;> rfl

mutual
theorem plain : (fragment : Fragment) → fragment.Written → fragment.Plain
  | .element _ _ children, .element named given _ _ inside =>
      .element (isPlainName_of_isLocalName named) (isPlainName_of_all_isGiven given)
        (fun child listed => (inside child listed).isAttribute) (plainAll children inside)
  | .text value, .text content => by
      refine .text ?_
      rintro rfl
      exact nomatch content

theorem plainAll : (fragments : List Fragment) → (∀ fragment ∈ fragments, fragment.Written) →
    ∀ fragment ∈ fragments, fragment.Plain
  | [], _ => List.forall_mem_nil _
  | fragment :: rest, written =>
      List.forall_mem_cons.mpr ⟨plain fragment (List.forall_mem_cons.mp written).1,
        plainAll rest (List.forall_mem_cons.mp written).2⟩
end

mutual
theorem isMerged : (fragment : Fragment) → fragment.Written → fragment.Merged
  | .element _ _ children, .element _ _ _ apart inside =>
      .element apart (isMergedAll children inside)
  | .text value, _ => .text value

theorem isMergedAll : (fragments : List Fragment) → (∀ fragment ∈ fragments, fragment.Written) →
    ∀ fragment ∈ fragments, fragment.Merged
  | [], _ => List.forall_mem_nil _
  | fragment :: rest, written =>
      List.forall_mem_cons.mpr ⟨isMerged fragment (List.forall_mem_cons.mp written).1,
        isMergedAll rest (List.forall_mem_cons.mp written).2⟩
end

mutual
theorem settled : (fragment : Fragment) → fragment.Written → fragment.Settled
  | .element _ _ children, .element _ _ names _ inside =>
      .element names (fun child listed => (inside child listed).isAttribute)
        (settledAll children inside)
  | .text value, _ => .text value

theorem settledAll : (fragments : List Fragment) → (∀ fragment ∈ fragments, fragment.Written) →
    ∀ fragment ∈ fragments, fragment.Settled
  | [], _ => List.forall_mem_nil _
  | fragment :: rest, written =>
      List.forall_mem_cons.mpr ⟨settled fragment (List.forall_mem_cons.mp written).1,
        settledAll rest (List.forall_mem_cons.mp written).2⟩
end

/-- Written fragments of which no two texts follow each other are determined by their compact
form. -/
theorem legible {fragments : List Fragment} (written : ∀ fragment ∈ fragments, fragment.Written)
    (apart : Apart fragments) : Legible fragments where
  plain := plainAll fragments written
  merged := isMergedAll fragments written
  below fragment listed := (written fragment listed).isAttribute
  apart := apart

end Written

end Fragment

end TreeQuery
