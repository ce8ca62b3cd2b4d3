import TreeQuery.Document.Serialization
import TreeQuery.Proofs.Markup.Replay

/-!
# Indented documents that are read again

The pretty form puts the children of an element on lines of their own if one of them is an element.
The line ends and margins it writes between them are blank texts when they are read, and so are
dropped (`run_margin`).  If no element has both elements and texts among its children, then no text
stands on a line of its own, and the lines are read as the elements they were written for
(`run_lines`).  So the pretty form is a document exactly if the compact form is, and it is read as
the same one (`parse_prettyAllAt_iff`).
-/

set_option autoImplicit false

/-! ## Fragments in pretty form -/

namespace TreeQuery.Fragment

mutual
/-- Whether no element has both elements and texts among its children. -/
def isUnmixed : Fragment → Bool
  | .element _ _ children =>
      !(children.any isElement && children.any isText) && allUnmixed children
  | .attribute _ _ => true
  | .text _ => true

def allUnmixed : List Fragment → Bool
  | [] => true
  | fragment :: rest => fragment.isUnmixed && allUnmixed rest
end

section Element

variable {name : String} {attributes : List (String × String)} {children : List Fragment}

theorem isUnmixed_iff : (Fragment.element name attributes children).isUnmixed = true ↔
    (children.any isElement = true → children.any isText = false) ∧
      allUnmixed children = true := by
  rw [isUnmixed, Bool.and_eq_true, Bool.not_eq_true', Bool.and_eq_false_imp]

/-- Where there are elements among written children, all of them are. -/
theorem isElement_of_isUnmixed (written : (Fragment.element name attributes children).Written)
    (unmixed : (Fragment.element name attributes children).isUnmixed = true)
    (nested : children.any isElement = true) : ∀ child ∈ children, child.isElement = true := by
  intro child listed
  have noText := List.any_eq_false.mp ((isUnmixed_iff.mp unmixed).1 nested) child listed
  cases written.inside child listed with
  | text content => exact absurd rfl noText
  | element => rfl

variable (depth : Nat) (after : List Char)

theorem toList_prettyAt_flat (flat : children.any isElement = false) :
    ((Fragment.element name attributes children).prettyAt depth).toList ++ after =
      (margin depth).toList ++
        ((Fragment.element name attributes children).compact.toList ++ '\n' :: after) := by
  rw [prettyAt, flat, if_neg Bool.false_ne_true]
  simp

theorem toList_prettyAt_nested (nested : children.any isElement = true) :
    ((Fragment.element name attributes children).prettyAt depth).toList ++ after =
      (margin depth).toList ++ (spellTag name attributes ++ '>' :: '\n' ::
        ((prettyAllAt (depth + 1) children).toList ++
          ((margin depth).toList ++ Markup.closeTag name ('\n' :: after)))) := by
  rw [prettyAt, if_pos nested, Markup.closeTag]
  simp [toList_writeTag]

end Element

end TreeQuery.Fragment

namespace TreeQuery.Markup

open Text (Position escapeChar)
open Fragment (compactAll prettyAllAt margin rereadAll allReadable allUnmixed rereadGiven
  isReadableGiven)

/-! ## Blank lines -/

/-- The end of a line with the margin of the next one. -/
def lineStart (depth : Nat) : List Char := '\n' :: (margin depth).toList

theorem mem_lineStart {depth : Nat} {c : Char} (listed : c ∈ lineStart depth) :
    c = '\n' ∨ c = ' ' := by
  rw [lineStart, margin, String.toList_ofList] at listed
  exact (List.mem_cons.mp listed).imp_right List.eq_of_mem_replicate

theorem all_lineStart {member : Char → Bool} (feed : member '\n' = true)
    (space : member ' ' = true) (depth : Nat) : (lineStart depth).all member = true :=
  List.all_eq_true.mpr fun c listed => by
    rcases mem_lineStart listed with rfl | rfl
    · exact feed
    · exact space

theorem escaped_lineStart (depth : Nat) :
    (lineStart depth).flatMap escapeChar = lineStart depth := by
  have plain : ∀ c ∈ lineStart depth, escapeChar c = [c] := by
    intro c listed
    rcases mem_lineStart listed with rfl | rfl <;> rfl
  rw [List.flatMap_congr plain, List.flatMap_singleton']

/-- Without carriage returns there is nothing to protect. -/
theorem keepsReturns_of_not_mem : (text : List Char) → '\r' ∉ text → ∀ shielded : Bool,
    keepsReturns shielded text = true
  | [], _, _ => rfl
  | c :: rest, absent, shielded => by
      rw [List.mem_cons, not_or] at absent
      rw [keepsReturns, keepsReturns_of_not_mem rest absent.2, decide_eq_true (Ne.symm absent.1)]
      rfl

theorem rereadFrom_lineStart (depth : Nat) :
    rereadFrom [] false (lineStart depth) = lineStart depth := by
  refine (rereadFrom_eq_self_iff _).mpr (keepsReturns_of_not_mem _ (fun listed => ?_) false)
  rcases mem_lineStart listed with same | same <;> exact absurd same (by decide)

/-- A blank text adds nothing to the open elements. -/
theorem Reader.Within.blank {reader : Reader} {opened : List OpenElement}
    {finished : List Fragment} (within : reader.Within opened finished)
    (settled : reader.text = "") {text : List Char}
    (blank : Text.allBlank (String.ofList text) = true) :
    (reader.adding text).Within opened finished := by
  obtain ⟨quiet, tag, rfl, rfl⟩ := within
  have grown : (reader.adding text).text = String.ofList text := by
    rw [Reader.adding, settled]
    exact String.empty_append
  refine ⟨⟨quiet.attributes, quiet.declarations⟩, tag, ?_, ?_⟩
  all_goals
    rw [reader.flush_of_text settled, Reader.flush, grown, if_pos blank]
    rfl

variable (expand : Cursor → Reading Unit)

/-- The start of a line is read up to the tag on it. -/
theorem run_margin (margin : Nat) (limit depth : Nat) {reader : Reader}
    {opened : List OpenElement} {finished : List Fragment} (position : Position)
    {after : List Char} (within : reader.Within opened finished) (settled : reader.text = "")
    (ends : ∀ c ∈ after.head?, c = '<') (enough : (lineStart margin ++ after).length < limit) :
    ReadsTo expand limit depth (reader.seeing position (lineStart margin ++ after)) after
      opened finished fun _ => True := by
  obtain ⟨limit, rfl⟩ := Nat.exists_eq_succ_of_ne_zero (Nat.ne_zero_of_lt enough)
  have allowed : (lineStart margin).all isDocumentChar = true :=
    all_lineStart (by decide) (by decide) margin
  have blank : Text.allBlank (String.ofList (lineStart margin)) = true := by
    rw [Text.allBlank, String.toList_ofList]
    exact all_lineStart (by decide) (by decide) margin
  obtain ⟨last, ran⟩ := run_text reader position expand allowed ends
  rw [escaped_lineStart, rereadFrom_lineStart] at ran
  have begins := run_contentItems_text entityDepth limit depth expand reader position
    (by decide : '\n' ≠ '<') ((Fragment.margin margin).toList ++ after)
  refine ⟨_, last, limit, ?_, within.blank settled blank, trivial, begins.trans (run_bind ran)⟩
  rw [lineStart, List.cons_append, List.length_cons, List.length_append] at enough
  omega

theorem head?_spellTag (name : String) (attributes : List (String × String))
    (after : List Char) : ∀ c ∈ (spellTag name attributes ++ after).head?, c = '<' := by
  rintro _ ⟨⟩
  rfl

/-! ## Reading lines again -/

/-- Lines are read as children up to the closing tag on the next line. -/
theorem ReadsAs.closing {content : List Char} {margin : Nat} {name : String} {after : List Char}
    {children : List Fragment} (reads : ReadsAs expand content
      (lineStart margin ++ closeTag name after) children (· = "")) :
    ReadsAs expand content (closeTag name after) children fun _ => True :=
  fun limit depth _ _ _ _ position within settled enough =>
    (reads limit depth position within settled enough).trans
      fun _ last rest further within settled =>
        run_margin expand margin rest depth last within settled (head?_closeTag name after) further

mutual
/-- An element on a line of its own is read again. -/
theorem run_line : (fragment : Fragment) → fragment.isElement = true → fragment.Written →
    fragment.isUnmixed = true → fragment.isReadable = true → (margin : Nat) →
    (after : List Char) → ReadsAs expand ('\n' :: ((fragment.prettyAt margin).toList ++ after))
      ('\n' :: after) [fragment.reread] (· = "")
  | .element name attributes children, _, written, unmixed, readable, margin, after => by
      intro limit depth reader element outer finished position within settled enough
      cases nested : children.any Fragment.isElement with
      | false =>
          obtain ⟨tail, _, spelled⟩ := exists_endsTag name attributes children ('\n' :: after)
          rw [Fragment.toList_prettyAt_flat margin after nested] at enough ⊢
          refine (run_margin expand margin limit depth position within settled
            (spelled ▸ head?_spellTag name attributes tail) enough).trans
              fun next last rest further within _ => ?_
          exact (run_item expand _ written readable rest depth last within nofun further).imp
            fun _ free => free rfl
      | true =>
          have elements := Fragment.isElement_of_isUnmixed written unmixed nested
          rw [Fragment.toList_prettyAt_nested margin after nested] at enough ⊢
          refine (run_margin expand margin limit depth position within settled
            (head?_spellTag name attributes _) enough).trans
              fun next last rest further within _ => ?_
          rw [Fragment.isReadable, Bool.and_eq_true] at readable
          rw [Fragment.reread]
          exact run_element written rest depth last within further readable.1
            (run_lines children elements written.inside (Fragment.isUnmixed_iff.mp unmixed).2
              readable.2 (margin + 1) _).closing

/-- **Elements on lines of their own are read again.** -/
theorem run_lines : (fragments : List Fragment) →
    (∀ fragment ∈ fragments, fragment.isElement = true) →
    (∀ fragment ∈ fragments, fragment.Written) → allUnmixed fragments = true →
    allReadable fragments = true → (margin : Nat) → (after : List Char) →
      ReadsAs expand ('\n' :: ((prettyAllAt margin fragments).toList ++ after)) ('\n' :: after)
        (rereadAll fragments) (· = "")
  | [], _, _, _, _, margin, after => by
      intro limit depth reader element outer finished position within settled enough
      rw [prettyAllAt] at enough ⊢
      rw [rereadAll]
      exact .start expand depth position within settled enough
  | fragment :: rest, elements, written, unmixed, readable, margin, after => by
      intro limit depth reader element outer finished position within settled enough
      rw [allUnmixed, Bool.and_eq_true] at unmixed
      rw [allReadable, Bool.and_eq_true] at readable
      obtain ⟨element, others⟩ := List.forall_mem_cons.mp elements
      obtain ⟨first, further⟩ := List.forall_mem_cons.mp written
      rw [prettyAllAt, String.toList_append, List.append_assoc] at enough ⊢
      rw [rereadAll, OpenElement.adding_cons]
      exact (run_line fragment element first unmixed.1 readable.1 margin _ limit depth position
        within settled enough).trans fun next last limit enough within settled =>
          run_lines rest others further unmixed.2 readable.2 margin after limit depth last within
            settled enough
end

mutual
/-- An element with an attribute value that cannot be read is not read on a line of its own. -/
theorem run_line_error : (fragment : Fragment) → fragment.isElement = true → fragment.Written →
    fragment.isUnmixed = true → fragment.isReadable = false → (margin : Nat) →
    (after : List Char) → Unread expand ('\n' :: ((fragment.prettyAt margin).toList ++ after))
  | .element name attributes children, _, written, unmixed, bad, margin, after => by
      intro limit depth reader element outer finished position within settled enough
      cases nested : children.any Fragment.isElement with
      | false =>
          obtain ⟨tail, _, spelled⟩ := exists_endsTag name attributes children ('\n' :: after)
          rw [Fragment.toList_prettyAt_flat margin after nested] at enough ⊢
          exact (run_margin expand margin limit depth position within settled
            (spelled ▸ head?_spellTag name attributes tail) enough).trans_error
              fun next last rest further within _ =>
                run_item_error expand _ written bad rest depth last within further
      | true =>
          have elements := Fragment.isElement_of_isUnmixed written unmixed nested
          rw [Fragment.toList_prettyAt_nested margin after nested] at enough ⊢
          refine (run_margin expand margin limit depth position within settled
            (head?_spellTag name attributes _) enough).trans_error
              fun next last rest further within _ =>
                run_element_error written rest depth last within further fun readable => ?_
          rw [Fragment.isReadable, readable, Bool.true_and] at bad
          exact run_lines_error children elements written.inside
            (Fragment.isUnmixed_iff.mp unmixed).2 bad (margin + 1) _

/-- **Elements of which one has an attribute value that cannot be read are not read on lines of
their own.** -/
theorem run_lines_error : (fragments : List Fragment) →
    (∀ fragment ∈ fragments, fragment.isElement = true) →
    (∀ fragment ∈ fragments, fragment.Written) → allUnmixed fragments = true →
    allReadable fragments = false → (margin : Nat) → (after : List Char) →
      Unread expand ('\n' :: ((prettyAllAt margin fragments).toList ++ after))
  | [], _, _, _, bad, _, _ => absurd rfl (ne_nil_of_allReadable bad)
  | fragment :: rest, elements, written, unmixed, bad, margin, after => by
      intro limit depth reader element outer finished position within settled enough
      rw [allUnmixed, Bool.and_eq_true] at unmixed
      obtain ⟨element, others⟩ := List.forall_mem_cons.mp elements
      obtain ⟨first, further⟩ := List.forall_mem_cons.mp written
      rw [prettyAllAt, String.toList_append, List.append_assoc] at enough ⊢
      cases readable : fragment.isReadable with
      | false =>
          exact run_line_error fragment element first unmixed.1 readable margin _ limit depth
            position within settled enough
      | true =>
          rw [allReadable, readable, Bool.true_and] at bad
          exact (run_line expand fragment element first unmixed.1 readable margin _ limit depth
            position within settled enough).trans_error fun next last limit enough within settled =>
              run_lines_error rest others further unmixed.2 bad margin after limit depth last
                within settled enough
end

/-! ## Whole documents -/

section Root

variable {name : String} {attributes : List (String × String)} {children : List Fragment}
variable (written : (Fragment.element name attributes children).Written)
variable (unmixed : (Fragment.element name attributes children).isUnmixed = true)
variable (reader : Reader) (position : Position) (quiet : reader.Quiet) (after : List Char)
include written unmixed quiet

/-- A root with an attribute value that cannot be read is not read again from its pretty form. -/
theorem run_prettyRoot_error
    (bad : (Fragment.element name attributes children).isReadable = false) :
    ∃ fault, document.run (reader.seeing position
      (((Fragment.element name attributes children).prettyAt 0).toList ++ after)) =
        .error fault := by
  cases nested : children.any Fragment.isElement with
  | false =>
      rw [Fragment.toList_prettyAt_flat 0 after nested]
      exact run_root_error written reader position quiet ('\n' :: after) bad
  | true =>
      have elements := Fragment.isElement_of_isUnmixed written unmixed nested
      rw [Fragment.toList_prettyAt_nested 0 after nested]
      refine run_root_filled_error written reader position quiet fun readable expand => ?_
      rw [Fragment.isReadable, readable, Bool.true_and] at bad
      exact run_lines_error expand children elements written.inside
        (Fragment.isUnmixed_iff.mp unmixed).2 bad 1 _

variable (settled : reader.text = "") (outside : reader.opened = [])
variable (new : reader.finished = [])
include settled outside new

/-- A root that is written is read again from its pretty form. -/
theorem run_prettyRoot
    (readable : (Fragment.element name attributes children).isReadable = true) :
    ∃ (next : Reader) (last : Position), next.text = "" ∧ next.opened = [] ∧
      next.finished = [(Fragment.element name attributes children).reread] ∧
      document.run (reader.seeing position
          (((Fragment.element name attributes children).prettyAt 0).toList ++ after)) =
        ending.run (next.seeing last ('\n' :: after)) := by
  cases nested : children.any Fragment.isElement with
  | false =>
      rw [Fragment.toList_prettyAt_flat 0 after nested]
      exact run_root written reader position quiet ('\n' :: after) settled outside new readable
  | true =>
      have elements := Fragment.isElement_of_isUnmixed written unmixed nested
      rw [Fragment.toList_prettyAt_nested 0 after nested]
      rw [Fragment.isReadable, Bool.and_eq_true] at readable
      rw [Fragment.reread]
      exact run_root_filled written reader position quiet settled outside new readable.1
        fun expand => (run_lines expand children elements written.inside
          (Fragment.isUnmixed_iff.mp unmixed).2 readable.2 1 _).closing expand

end Root

theorem GoesOn.skipping {spaces text : List Char} (blank : spaces.all isSpace = true)
    (further : GoesOn text) : GoesOn (spaces ++ text) := by
  obtain ⟨more, d, rest, rfl, blankToo, visible⟩ := further
  refine ⟨spaces ++ more, d, rest, (List.append_assoc _ _ _).symm, ?_, visible⟩
  rw [List.all_append, blank, blankToo]
  rfl

/-- What is on a line is neither white space nor a comment or an instruction. -/
theorem goesOn_pretty {fragment : Fragment} (written : fragment.Written) (margin : Nat)
    (after : List Char) : GoesOn ('\n' :: ((fragment.prettyAt margin).toList ++ after)) := by
  have blank : (lineStart margin).all isSpace = true :=
    all_lineStart (by decide) (by decide) margin
  cases written with
  | @text value content =>
      have spelled : '\n' :: (((Fragment.text value).prettyAt margin).toList ++ after) =
          lineStart margin ++ ((Fragment.text value).compact.toList ++ '\n' :: after) := by
        rw [Fragment.prettyAt, Fragment.compact, lineStart]
        simp
      rw [spelled]
      exact (goesOn_compact (.text content) _).skipping blank
  | @element name attributes children named given names apart inside =>
      cases nested : children.any Fragment.isElement with
      | false =>
          rw [Fragment.toList_prettyAt_flat margin after nested]
          exact (goesOn_compact (.element named given names apart inside) _).skipping blank
      | true =>
          rw [Fragment.toList_prettyAt_nested margin after nested]
          exact (goesOn_spellTag named attributes _).skipping blank

/-- **What is written in pretty form is read again exactly if it is one root with attribute values
that can be read.** -/
theorem parse_prettyAllAt_iff {root : Fragment} (element : root.isElement = true)
    {more : List Fragment} (written : ∀ fragment ∈ root :: more, fragment.Written)
    (unmixed : root.isUnmixed = true) {fragments : List Fragment} :
    parse (prettyAllAt 0 (root :: more)) = .ok fragments ↔
      more = [] ∧ root.isReadable = true ∧ fragments = [root.reread] := by
  obtain ⟨first, others⟩ := List.forall_mem_cons.mp written
  obtain ⟨name, attributes, children, rfl⟩ := exists_of_isElement element
  rw [prettyAllAt]
  have begins : Reader.start ((Fragment.element name attributes children).prettyAt 0 ++
      prettyAllAt 0 more) = (Reader.start ((Fragment.element name attributes children).prettyAt 0 ++
        prettyAllAt 0 more)).seeing .start (((Fragment.element name attributes
          children).prettyAt 0).toList ++ (prettyAllAt 0 more).toList) := by
    rw [← String.toList_append]
    rfl
  have quiet : ∀ text, (Reader.start text).Quiet := fun _ => ⟨rfl, rfl⟩
  have ends : ('\n' :: (prettyAllAt 0 more).toList).all isSpace = true ∧ more = [] ∨
      GoesOn ('\n' :: (prettyAllAt 0 more).toList) ∧ more ≠ [] := by
    cases more with
    | nil => exact .inl ⟨rfl, rfl⟩
    | cons fragment rest =>
        rw [prettyAllAt, String.toList_append]
        exact .inr ⟨goesOn_pretty (others fragment List.mem_cons_self) 0 _, nofun⟩
  refine parse_iff_of_root rfl (fun bad => ?_) (fun readable => ?_) ends
  · rw [begins]
    exact run_prettyRoot_error first unmixed _ .start (quiet _) _ bad
  · rw [begins]
    exact run_prettyRoot first unmixed _ .start (quiet _) _ rfl rfl rfl readable

end TreeQuery.Markup
