import Mathlib.Data.List.Basic
import TreeQuery.Document.Serialization
import TreeQuery.Markup.Character

/-!
# Where written parts end

The compact form is flat text, and what it is the form of shows in the characters that end its
parts.  A name ends at the first character that no name has.  A value or a text ends at the first
quote or angle bracket, because in them these characters are written as references
(`Text.escaped_append_inj`).  So two opening tags that are written alike are the same tag
(`tag_append_inj`).
-/

set_option autoImplicit false

namespace TreeQuery

/-! ## Parts of lists -/

/-- A list shows where a member stands for the last time. -/
theorem last_append_inj {α : Type} {stop : α} {first second after next : List α}
    (absent : stop ∉ after) (absentToo : stop ∉ next)
    (same : first ++ stop :: after = second ++ stop :: next) : first = second ∧ after = next := by
  rcases List.append_eq_append_iff.mp same with ⟨more, rfl, rest⟩ | ⟨more, rfl, rest⟩
  · cases more with
    | nil => exact ⟨(List.append_nil _).symm, (List.cons.inj rest).2⟩
    | cons c more =>
        rw [(List.cons.inj rest).2] at absent
        exact absurd (List.mem_append_right more List.mem_cons_self) absent
  · cases more with
    | nil => exact ⟨List.append_nil _, ((List.cons.inj rest).2).symm⟩
    | cons c more =>
        rw [(List.cons.inj rest).2] at absentToo
        exact absurd (List.mem_append_right more List.mem_cons_self) absentToo

/-! ## Escaped characters -/

namespace Text

/-- The characters that are written as references. -/
def isEscaped (c : Char) : Bool := ['<', '>', '&', '\x27', '\x22'].contains c

theorem isEscaped_iff {c : Char} :
    isEscaped c = true ↔ c = '<' ∨ c = '>' ∨ c = '&' ∨ c = '\x27' ∨ c = '\x22' := by
  simp [isEscaped]

theorem escapeChar_of_isEscaped_eq_false {c : Char} (plain : isEscaped c = false) :
    escapeChar c = [c] := by
  simp only [isEscaped, List.contains_eq_mem, decide_eq_false_iff_not, List.mem_cons,
    List.not_mem_nil, or_false, not_or] at plain
  unfold escapeChar
  split <;> simp_all

/-- A written character is no quote and no angle bracket. -/
theorem not_isEscaped_of_mem_escapeChar {c d : Char} (member : d ∈ escapeChar c) :
    d = '&' ∨ isEscaped d = false := by
  cases plain : isEscaped c with
  | false =>
      rw [escapeChar_of_isEscaped_eq_false plain, List.mem_singleton] at member
      exact .inr (member ▸ plain)
  | true =>
      have written : (escapeChar c).all (fun d => d == '&' || !isEscaped d) = true := by
        rcases isEscaped_iff.mp plain with rfl | rfl | rfl | rfl | rfl <;> rfl
      simpa using List.all_eq_true.mp written d member

/-- No quote is written as itself. -/
theorem quote_not_mem_escaped (text : List Char) : '\x22' ∉ text.flatMap escapeChar := by
  intro member
  obtain ⟨c, _, written⟩ := List.mem_flatMap.mp member
  rcases not_isEscaped_of_mem_escapeChar written with ampersand | unescaped
  · exact absurd ampersand (by decide)
  · exact absurd unescaped (by decide)

theorem escapeChar_ne_nil (c : Char) : escapeChar c ≠ [] := by
  cases plain : isEscaped c with
  | false =>
      rw [escapeChar_of_isEscaped_eq_false plain]
      exact List.cons_ne_nil _ _
  | true =>
      rcases isEscaped_iff.mp plain with rfl | rfl | rfl | rfl | rfl <;>
        exact List.cons_ne_nil _ _

/-- No reference begins another one. -/
theorem eq_of_escapeChar_begins {c d : Char} (first : isEscaped c = true)
    (second : isEscaped d = true) (begins : escapeChar c <+: escapeChar d) : c = d := by
  rcases isEscaped_iff.mp first with rfl | rfl | rfl | rfl | rfl <;>
    rcases isEscaped_iff.mp second with rfl | rfl | rfl | rfl | rfl <;>
    revert begins <;> decide

/-- A written character shows which character it is and where it ends. -/
theorem escapeChar_append_inj {c d : Char} {after next : List Char}
    (same : escapeChar c ++ after = escapeChar d ++ next) : c = d ∧ after = next := by
  have ampersand : ∀ {c d : Char} {after next : List Char}, isEscaped c = true →
      isEscaped d = false → escapeChar c ++ after ≠ escapeChar d ++ next := by
    intro c d after next escaped plain same
    rw [escapeChar_of_isEscaped_eq_false plain, List.singleton_append] at same
    have first : d = '&' := by
      rcases isEscaped_iff.mp escaped with rfl | rfl | rfl | rfl | rfl <;>
        exact (List.cons.inj same).1.symm
    rw [first] at plain
    exact nomatch plain
  cases plain : isEscaped c with
  | false =>
      cases plainToo : isEscaped d with
      | false =>
          rw [escapeChar_of_isEscaped_eq_false plain,
            escapeChar_of_isEscaped_eq_false plainToo] at same
          exact List.cons.inj same
      | true => exact absurd same.symm (ampersand plainToo plain)
  | true =>
      cases plainToo : isEscaped d with
      | false => exact absurd same (ampersand plain plainToo)
      | true =>
          have sameChar : c = d := by
            rcases List.append_eq_append_iff.mp same with ⟨more, longer, _⟩ | ⟨more, longer, _⟩
            · exact eq_of_escapeChar_begins plain plainToo (longer ▸ List.prefix_append _ _)
            · exact (eq_of_escapeChar_begins plainToo plain (longer ▸ List.prefix_append _ _)).symm
          rw [sameChar] at same
          exact ⟨sameChar, List.append_cancel_left same⟩

/-- Whether a list is at its end or goes on with a character that is not written as itself and
starts no reference. -/
def Stops (after : List Char) : Prop := ∀ c ∈ after.head?, isEscaped c = true ∧ c ≠ '&'

theorem Stops.not_append {c : Char} {after next : List Char} (stops : Stops after) :
    after ≠ escapeChar c ++ next := by
  intro same
  obtain ⟨first, rest, written⟩ := List.exists_cons_of_ne_nil (escapeChar_ne_nil c)
  obtain ⟨escaped, other⟩ := stops first (by rw [same, written]; rfl)
  rcases not_isEscaped_of_mem_escapeChar (written ▸ List.mem_cons_self : first ∈ escapeChar c)
    with ampersand | plain
  · exact other ampersand
  · rw [plain] at escaped
    cases escaped

/-- **A written text ends at the first character that stops it.** -/
theorem escaped_append_inj : {first second after next : List Char} → Stops after → Stops next →
    first.flatMap escapeChar ++ after = second.flatMap escapeChar ++ next →
      first = second ∧ after = next
  | [], [], _, _, _, _, same => ⟨rfl, same⟩
  | [], _ :: _, _, _, stops, _, same => by
      rw [List.flatMap_cons, List.append_assoc] at same
      exact absurd same stops.not_append
  | _ :: _, [], _, _, _, stops, same => by
      rw [List.flatMap_cons, List.append_assoc] at same
      exact absurd same.symm stops.not_append
  | _ :: first, _ :: second, _, _, stops, stopsToo, same => by
      rw [List.flatMap_cons, List.flatMap_cons, List.append_assoc, List.append_assoc] at same
      obtain ⟨sameChar, sameRest⟩ := escapeChar_append_inj same
      obtain ⟨sameText, sameAfter⟩ := escaped_append_inj stops stopsToo sameRest
      exact ⟨by rw [sameChar, sameText], sameAfter⟩

end Text

open Text

/-! ## Names -/

/-- The characters by which a name in a tag ends: white space, angle brackets, slash, equals
sign, ampersand and quotes. -/
def Markup.endsName (c : Char) : Bool :=
  isSpace c || ['<', '>', '/', '=', '&', '\x27', '\x22'].contains c

/-- Whether a name is not empty and has no character by which names end. -/
def Markup.isPlainName (name : String) : Bool :=
  !name.isEmpty && name.toList.all (!endsName ·)

open Markup

theorem name_append_inj : {first second after next : List Char} → first.all (!endsName ·) = true →
    second.all (!endsName ·) = true → (∃ c rest, after = c :: rest ∧ endsName c = true) →
      (∃ c rest, next = c :: rest ∧ endsName c = true) → first ++ after = second ++ next →
        first = second ∧ after = next
  | [], [], _, _, _, _, _, _, same => ⟨rfl, same⟩
  | [], c :: _, _, _, _, plain, ⟨d, _, after, ends⟩, _, same => by
      rw [after, List.nil_append, List.cons_append, List.cons.injEq] at same
      simp [same.1 ▸ ends] at plain
  | c :: _, [], _, _, plain, _, _, ⟨d, _, next, ends⟩, same => by
      rw [next, List.nil_append, List.cons_append, List.cons.injEq] at same
      simp [same.1, ends] at plain
  | _ :: first, _ :: second, _, _, plain, plainToo, ends, endsToo, same => by
      rw [List.all_cons, Bool.and_eq_true] at plain plainToo
      obtain ⟨sameChar, sameRest⟩ := List.cons.inj same
      obtain ⟨sameName, sameAfter⟩ := name_append_inj plain.2 plainToo.2 ends endsToo sameRest
      exact ⟨by rw [sameChar, sameName], sameAfter⟩

/-! ## Tags -/

/-- An attribute as it is spelled in a tag, with the space before it. -/
def spellAttribute (given : String × String) : List Char :=
  ' ' :: (given.1.toList ++ '=' :: '\x22' ::
    (given.2.toList.flatMap escapeChar ++ ['\x22']))

/-- An opening tag as it is spelled, up to the sign that ends it. -/
def spellTag (name : String) (attributes : List (String × String)) : List Char :=
  '<' :: (name.toList ++ attributes.flatMap spellAttribute)

theorem toList_writeTag (name : String) (attributes : List (String × String)) :
    (writeTag name attributes).toList = spellTag name attributes := by
  rw [writeTag, String.toList_append, String.toList_append, String.toList_join, List.flatMap_map,
    List.flatMap_congr (g := spellAttribute) fun given _ => by
      simp [writeAttribute, spellAttribute]]
  rfl

/-- Whether a tag ends here. -/
def EndsTag (after : List Char) : Prop := ∃ c rest, after = c :: rest ∧ (c = '/' ∨ c = '>')

theorem attributes_append_inj : {first second : List (String × String)} →
    {after next : List Char} → (∀ given ∈ first, isPlainName given.1 = true) →
      (∀ given ∈ second, isPlainName given.1 = true) → EndsTag after → EndsTag next →
        first.flatMap spellAttribute ++ after = second.flatMap spellAttribute ++ next →
          first = second ∧ after = next
  | [], [], _, _, _, _, _, _, same => ⟨rfl, same⟩
  | [], _ :: _, _, _, _, _, ⟨c, _, after, ends⟩, _, same => by
      rw [after, List.flatMap_cons, spellAttribute] at same
      rw [(List.cons.inj same).1] at ends
      simp at ends
  | _ :: _, [], _, _, _, _, _, ⟨c, _, next, ends⟩, same => by
      rw [next, List.flatMap_cons, spellAttribute] at same
      rw [← (List.cons.inj same).1] at ends
      simp at ends
  | (name, value) :: first, (other, otherValue) :: second, _, _, plain, plainToo, ends, endsToo,
      same => by
      obtain ⟨plainName, plain⟩ := List.forall_mem_cons.mp plain
      obtain ⟨plainOther, plainToo⟩ := List.forall_mem_cons.mp plainToo
      rw [isPlainName, Bool.and_eq_true] at plainName plainOther
      simp only [List.flatMap_cons, spellAttribute, List.cons_append, List.append_assoc,
        List.nil_append, List.cons.injEq, true_and] at same
      have equals : endsName '=' = true := by decide
      have quote : ∀ rest : List Char, Stops ('\x22' :: rest) := by
        intro rest c first
        obtain rfl := Option.some.inj first
        decide
      obtain ⟨sameName, same⟩ := name_append_inj plainName.2 plainOther.2 ⟨_, _, rfl, equals⟩
        ⟨_, _, rfl, equals⟩ same
      obtain ⟨sameValue, same⟩ :=
        escaped_append_inj (quote _) (quote _) (List.cons.inj (List.cons.inj same).2).2
      obtain ⟨sameRest, sameAfter⟩ :=
        attributes_append_inj plain plainToo ends endsToo (List.cons.inj same).2
      have sameGiven : (name, value) = (other, otherValue) :=
        Prod.ext (String.toList_inj.mp sameName) (String.toList_inj.mp sameValue)
      exact ⟨by rw [sameGiven, sameRest], sameAfter⟩

/-- **An opening tag shows its name, its attributes and its end.** -/
theorem tag_append_inj {name other : String} {attributes others : List (String × String)}
    {after next : List Char} (plainName : isPlainName name = true)
    (plainOther : isPlainName other = true)
    (plain : ∀ given ∈ attributes, isPlainName given.1 = true)
    (plainToo : ∀ given ∈ others, isPlainName given.1 = true) (ends : EndsTag after)
    (endsToo : EndsTag next)
    (same : spellTag name attributes ++ after = spellTag other others ++ next) :
    name = other ∧ attributes = others ∧ after = next := by
  have ended : ∀ {attributes : List (String × String)} {after : List Char}, EndsTag after →
      ∃ c rest, attributes.flatMap spellAttribute ++ after = c :: rest ∧ endsName c = true := by
    rintro attributes after ⟨c, rest, rfl, sign⟩
    cases attributes with
    | nil => exact ⟨c, rest, rfl, by rcases sign with rfl | rfl <;> decide⟩
    | cons given _ => exact ⟨' ', _, rfl, by decide⟩
  rw [isPlainName, Bool.and_eq_true] at plainName plainOther
  rw [spellTag, spellTag, List.cons_append, List.cons_append, List.append_assoc,
    List.append_assoc] at same
  obtain ⟨sameName, same⟩ := name_append_inj plainName.2 plainOther.2 (ended ends) (ended endsToo)
    (List.cons.inj same).2
  exact ⟨String.toList_inj.mp sameName, attributes_append_inj plain plainToo ends endsToo same⟩

end TreeQuery
