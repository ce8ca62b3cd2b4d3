import TreeQuery.Markup.Document
import TreeQuery.Proofs.Document.Spelling

/-!
# What written characters are read as

A character that is written as a reference is read as it is.  Other characters of an attribute
value are read with all white space as spaces; other characters of a text with line ends
normalized, except that a carriage return stays one if a reference follows, or if a reference
precedes it and nothing follows.

So an attribute value is read as it was exactly if it has no white space but spaces
(`rereadValue_eq_self_iff`), and a text exactly if references protect its carriage returns in this
way (`rereadFrom_eq_self_iff`).
-/

set_option autoImplicit false

namespace TreeQuery.Markup

open Text (isEscaped isEscaped_iff)

/-! ## Attribute values -/

/-- An attribute value as it is read again: white space becomes spaces, a carriage return with a
line feed after it one. -/
def rereadValue : List Char → List Char
  | [] => []
  | c :: rest =>
      if c = '\r' ∧ rest.head? = some '\n' then rereadValue rest else asSpace c :: rereadValue rest

theorem rereadValue_of_isEscaped {c : Char} (escaped : isEscaped c = true) (rest : List Char) :
    rereadValue (c :: rest) = c :: rereadValue rest := by
  rcases isEscaped_iff.mp escaped with rfl | rfl | rfl | rfl | rfl <;>
    simp [rereadValue, asSpace]

/-- Whether a character is white space that is no space. -/
def isBreak (c : Char) : Bool := c = '\n' || c = '\r' || c = '\t'

theorem asSpace_eq_self_iff (c : Char) : asSpace c = c ↔ isBreak c = false := by
  unfold asSpace isBreak
  split
  · rename_i space
    rw [space]
    simp only [Bool.or_eq_true, decide_eq_true_iff] at space
    rcases space with (rfl | rfl) | rfl <;> decide
  · rename_i other
    rw [Bool.not_eq_true] at other
    rw [other]
    exact ⟨fun _ => rfl, fun _ => rfl⟩

/-- There is no white space but spaces in what is read. -/
theorem isBreak_of_mem_rereadValue : (value : List Char) → ∀ c ∈ rereadValue value, isBreak c = false
  | [] => List.forall_mem_nil _
  | c :: rest => by
      rw [rereadValue]
      split
      · exact isBreak_of_mem_rereadValue rest
      · refine List.forall_mem_cons.mpr ⟨?_, isBreak_of_mem_rereadValue rest⟩
        unfold asSpace
        split
        · rfl
        · rename_i other
          exact Bool.eq_false_iff.mpr other

/-- **An attribute value is read as it was exactly if it has no white space but spaces.** -/
theorem rereadValue_eq_self_iff (value : List Char) :
    rereadValue value = value ↔ value.any isBreak = false := by
  constructor
  · intro same
    rw [← same, List.any_eq_false]
    exact fun c listed => by rw [isBreak_of_mem_rereadValue value c listed]; exact nofun
  · intro plain
    induction value with
    | nil => rfl
    | cons c rest ih =>
        rw [List.any_cons, Bool.or_eq_false_iff] at plain
        have kept : ¬(c = '\r' ∧ rest.head? = some '\n') := by
          rintro ⟨rfl, _⟩
          exact absurd plain.1 (by decide)
        rw [rereadValue, if_neg kept, (asSpace_eq_self_iff c).mpr plain.1, ih plain.2]

/-! ## Texts -/

/-- A text as it is read again, after characters given backwards; what follows a reference is taken
as it is. -/
def rereadFrom (before : List Char) (asIs : Bool) : List Char → List Char
  | [] => before.reverse
  | c :: rest =>
      if isEscaped c then rereadFrom (c :: before) true rest
      else rereadFrom (if asIs then c :: before else pushLine before c rest.isEmpty) false rest

/-- What a carriage return is read as, given whether a reference precedes it and what follows. -/
def rereadReturn (shielded : Bool) : List Char → List Char
  | [] => if shielded then ['\r'] else ['\n']
  | next :: _ => if isEscaped next then ['\r'] else if next = '\n' then [] else ['\n']

/-- A text as it is read again, given whether a reference precedes it. -/
def rereadText (shielded : Bool) : List Char → List Char
  | [] => []
  | c :: rest =>
      (if c = '\r' then rereadReturn shielded rest else [c]) ++ rereadText (isEscaped c) rest

theorem pushLine_of_settled {before : List Char} (settled : before.head? ≠ some '\r') (c : Char)
    (last : Bool) :
    pushLine before c last = (if last && c = '\r' then '\n' else c) :: before := by
  unfold pushLine
  split
  · exact absurd rfl settled
  · split <;> rfl

/-- Reading with the characters before at hand does not change what each character becomes. -/
theorem rereadFrom_eq (value : List Char) :
    (∀ (before : List Char) (asIs : Bool), before.head? ≠ some '\r' →
      rereadFrom before asIs value = before.reverse ++ rereadText asIs value) ∧
    ∀ earlier : List Char, rereadFrom ('\r' :: earlier) false value =
      earlier.reverse ++ (rereadReturn true value ++ rereadText false value) := by
  induction value with
  | nil =>
      refine ⟨fun before asIs _ => (List.append_nil _).symm, fun earlier => ?_⟩
      rw [rereadFrom, List.reverse_cons]
      rfl
  | cons c rest ih =>
      obtain ⟨settled, pending⟩ := ih
      -- What follows a character that is no carriage return.
      have further : ∀ (before : List Char), c ≠ '\r' → ∀ asIs : Bool,
          rereadFrom (c :: before) asIs rest = before.reverse ++ c :: rereadText asIs rest := by
        intro before other asIs
        rw [settled _ asIs (by simpa using other), List.reverse_cons, List.append_assoc]
        rfl
      cases escaped : isEscaped c with
      | true =>
          have other : c ≠ '\r' := by
            rintro rfl
            exact absurd escaped (by decide)
          constructor
          · intro before asIs head
            rw [rereadFrom, if_pos escaped, further _ other, rereadText, if_neg other, escaped]
            rfl
          · intro earlier
            rw [rereadFrom, if_pos escaped, further _ other, rereadText, if_neg other, escaped,
              List.reverse_cons, List.append_assoc, rereadReturn, if_pos escaped]
            rfl
      | false =>
          constructor
          · intro before asIs head
            rw [rereadFrom, escaped, if_neg (by decide), rereadText, escaped,
              pushLine_of_settled head]
            by_cases isReturn : c = '\r'
            · subst isReturn
              rw [if_pos rfl]
              cases asIs with
              | true => rw [if_pos rfl, pending]
              | false =>
                  cases rest with
                  | nil => simp [rereadFrom, rereadReturn, rereadText]
                  | cons next rest => simpa [rereadReturn] using pending before
            · rw [if_neg isReturn, decide_eq_false isReturn, Bool.and_false,
                if_neg Bool.false_ne_true, ite_self, further _ isReturn]
              rfl
          · intro earlier
            rw [rereadFrom, escaped, if_neg (by decide), if_neg (by decide), rereadText, escaped,
              rereadReturn, escaped, if_neg (by decide), pushLine]
            by_cases isReturn : c = '\r'
            · subst isReturn
              cases rest with
              | nil => simp [rereadFrom, rereadReturn, rereadText]
              | cons next rest => simpa [rereadReturn] using pending ('\n' :: earlier)
            · rw [if_neg isReturn, decide_eq_false isReturn, Bool.and_false,
                if_neg Bool.false_ne_true]
              by_cases isFeed : c = '\n'
              · rw [if_pos isFeed, if_pos isFeed, ← isFeed, further _ isReturn]
                rfl
              · rw [if_neg isFeed, if_neg isFeed, further _ isReturn, List.reverse_cons,
                  List.append_assoc]
                rfl

/-- Whether a reference protects a carriage return: it follows, or it precedes and nothing
follows. -/
def isShielded (shielded : Bool) : List Char → Bool
  | [] => shielded
  | next :: _ => isEscaped next

/-- Whether references protect all carriage returns of a text, given whether a reference precedes
it. -/
def keepsReturns (shielded : Bool) : List Char → Bool
  | [] => true
  | c :: rest => (c ≠ '\r' || isShielded shielded rest) && keepsReturns (isEscaped c) rest

theorem rereadText_eq_self_iff (text : List Char) : ∀ shielded : Bool,
    rereadText shielded text = text ↔ keepsReturns shielded text = true := by
  induction text with
  | nil => exact fun _ => ⟨fun _ => rfl, fun _ => rfl⟩
  | cons c rest ih =>
      intro shielded
      rw [rereadText, keepsReturns, Bool.and_eq_true, Bool.or_eq_true, decide_eq_true_iff, ← ih]
      by_cases isReturn : c = '\r'
      · have plain : isEscaped c = false := by
          rw [isReturn]
          rfl
        rw [if_pos isReturn, isReturn]
        cases rest with
        | nil => cases shielded <;> decide
        | cons next rest =>
            rw [rereadReturn, isShielded]
            cases escaped : isEscaped next with
            | true => simp
            | false =>
                rw [if_neg (by decide)]
                by_cases isFeed : next = '\n'
                · simp [isFeed, rereadText]
                · simp [isFeed]
      · rw [if_neg isReturn, List.singleton_append, List.cons_inj_right]
        exact ⟨fun same => ⟨.inl isReturn, same⟩, fun both => both.2⟩

/-- **A text is read as it was exactly if references protect its carriage returns.** -/
theorem rereadFrom_eq_self_iff (text : List Char) :
    rereadFrom [] false text = text ↔ keepsReturns false text = true := by
  rw [(rereadFrom_eq text).1 [] false nofun]
  exact rereadText_eq_self_iff text false

theorem mem_rereadText {c : Char} (other : c ≠ '\r') : (text : List Char) → ∀ shielded : Bool,
    c ∈ text → c ∈ rereadText shielded text
  | next :: rest, shielded, listed => by
      rw [rereadText, List.mem_append]
      rcases List.mem_cons.mp listed with rfl | further
      · rw [if_neg other]
        exact .inl List.mem_cons_self
      · exact .inr (mem_rereadText other rest _ further)

/-- What is read has only characters that a document may hold, if the text has. -/
theorem all_rereadText : (text : List Char) → (shielded : Bool) → text.all isDocumentChar = true →
    (rereadText shielded text).all isDocumentChar = true
  | [], _, _ => rfl
  | c :: rest, shielded, allowed => by
      rw [List.all_cons, Bool.and_eq_true] at allowed
      have kept : (if c = '\r' then rereadReturn shielded rest else [c]).all isDocumentChar =
          true := by
        split
        · unfold rereadReturn
          split
          · cases shielded <;> decide
          · split
            · decide
            · split <;> decide
        · rw [List.all_cons, allowed.1]
          rfl
      rw [rereadText, List.all_append, kept, all_rereadText rest _ allowed.2]
      rfl

/-- What is not blank is not read as blank. -/
theorem allBlank_rereadFrom {text : String} (filled : Text.allBlank text = false) :
    Text.allBlank (String.ofList (rereadFrom [] false text.toList)) = false := by
  rw [Text.allBlank, List.all_eq_false] at filled ⊢
  obtain ⟨c, listed, visible⟩ := filled
  have other : c ≠ '\r' := by
    rintro rfl
    exact visible (by decide)
  rw [String.toList_ofList, (rereadFrom_eq text.toList).1 [] false nofun]
  exact ⟨c, mem_rereadText other _ false listed, visible⟩

end TreeQuery.Markup

/-! ## Fragments -/

namespace TreeQuery.Fragment

open Markup

/-- An attribute as it is read again from its tag. -/
def rereadGiven (given : String × String) : String × String :=
  (given.1, String.ofList (rereadValue given.2.toList))

mutual
/-- A fragment as it is read again from its compact form. -/
def reread : Fragment → Fragment
  | .element name attributes children =>
      .element name (attributes.map rereadGiven) (rereadAll children)
  | .attribute name value => .attribute name value
  | .text value => .text (String.ofList (rereadFrom [] false value.toList))

/-- Fragments as they are read again from their compact form. -/
def rereadAll : List Fragment → List Fragment
  | [] => []
  | fragment :: rest => fragment.reread :: rereadAll rest
end

theorem rereadAll_eq_map (fragments : List Fragment) :
    rereadAll fragments = fragments.map reread := by
  induction fragments with
  | nil => rw [rereadAll, List.map_nil]
  | cons fragment rest ih => rw [rereadAll, ih, List.map_cons]

/-- Whether an attribute value has only characters that a document may hold. -/
def isReadableGiven (given : String × String) : Bool := given.2.toList.all isDocumentChar

mutual
/-- Whether all attribute values in a fragment have only characters that a document may hold. -/
def isReadable : Fragment → Bool
  | .element _ attributes children => attributes.all isReadableGiven && allReadable children
  | .attribute _ _ => true
  | .text _ => true

def allReadable : List Fragment → Bool
  | [] => true
  | fragment :: rest => fragment.isReadable && allReadable rest
end

/-- Whether an attribute value has only characters that a document may hold, and no white space
but spaces. -/
def isDurableGiven (given : String × String) : Bool :=
  given.2.toList.all isDocumentChar && !given.2.toList.any isBreak

mutual
/-- Whether a fragment is preserved by its compact form: in attribute values there are only
characters that a document may hold and no white space but spaces, and in texts references protect
all carriage returns. -/
def isDurable : Fragment → Bool
  | .element _ attributes children => attributes.all isDurableGiven && allDurable children
  | .attribute _ _ => true
  | .text value => keepsReturns false value.toList

def allDurable : List Fragment → Bool
  | [] => true
  | fragment :: rest => fragment.isDurable && allDurable rest
end

theorem isDurableGiven_iff (given : String × String) :
    isDurableGiven given = true ↔ isReadableGiven given = true ∧ rereadGiven given = given := by
  have same : rereadGiven given = given ↔ rereadValue given.2.toList = given.2.toList := by
    obtain ⟨name, value⟩ := given
    rw [rereadGiven, Prod.mk.injEq, and_iff_right rfl, ← String.toList_inj, String.toList_ofList]
  rw [isDurableGiven, isReadableGiven, same, rereadValue_eq_self_iff, Bool.and_eq_true,
    Bool.not_eq_true']

theorem all_isDurableGiven_iff (attributes : List (String × String)) :
    attributes.all isDurableGiven = true ↔
      attributes.all isReadableGiven = true ∧ attributes.map rereadGiven = attributes := by
  induction attributes with
  | nil => simp
  | cons given rest ih =>
      rw [List.all_cons, List.all_cons, List.map_cons, Bool.and_eq_true, Bool.and_eq_true, ih,
        isDurableGiven_iff, List.cons.injEq, and_and_and_comm]

mutual
/-- **A fragment is durable exactly if it can be read again and is then what it was.** -/
theorem isDurable_iff : (fragment : Fragment) →
    (fragment.isDurable = true ↔ fragment.isReadable = true ∧ fragment.reread = fragment)
  | .element name attributes children => by
      rw [isDurable, isReadable, reread, Bool.and_eq_true, Bool.and_eq_true,
        all_isDurableGiven_iff, allDurable_iff children, and_and_and_comm,
        Fragment.element.injEq, and_iff_right rfl]
  | .attribute name value => by simp [isDurable, isReadable, reread]
  | .text value => by
      rw [isDurable, isReadable, reread, ← rereadFrom_eq_self_iff, Fragment.text.injEq,
        ← String.toList_inj, String.toList_ofList, and_iff_right rfl]

theorem allDurable_iff : (fragments : List Fragment) →
    (allDurable fragments = true ↔
      allReadable fragments = true ∧ rereadAll fragments = fragments)
  | [] => by simp [allDurable, allReadable, rereadAll]
  | fragment :: rest => by
      rw [allDurable, allReadable, rereadAll, Bool.and_eq_true, Bool.and_eq_true,
        isDurable_iff fragment, allDurable_iff rest, List.cons.injEq, and_and_and_comm]
end

end TreeQuery.Fragment
