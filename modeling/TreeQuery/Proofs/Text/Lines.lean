import Mathlib.Data.List.Infix
import TreeQuery.Proofs.Grammar.Texts
import TreeQuery.Text.Lines

/-!
# Lines put together again

A text that is split into its lines and put together again with line feeds has lost two things: the
line feed it may end in, and every carriage return directly before a line feed
(`toList_intercalate_lines`).  The first is the end of the last line.  The second is a part of the
text, and it is lost exactly if the text has such a pair (`plainLineEnds_eq_self_iff`); where a line
feed ends the text, the two losses are still told apart (`dropLineEnd_plainLineEnds_eq_iff`).
-/

set_option autoImplicit false

namespace TreeQuery.Text

open Grammar (dropLineEnd dropLineEnd_eq)

/-! ## The last line end -/

/-- A text without the line feed it ends in, if it does. -/
def withoutLineEnd (text : String) : String := String.ofList (dropLineEnd text.toList)

theorem dropLineEnd_append_lineFeed : (text : List Char) → dropLineEnd (text ++ ['\n']) = text
  | [] => rfl
  | c :: rest => by
      have more : rest ++ ['\n'] ≠ [] := List.append_ne_nil_of_right_ne_nil _ (List.cons_ne_nil _ _)
      obtain ⟨d, others, split⟩ := List.exists_cons_of_ne_nil more
      have later := dropLineEnd_append_lineFeed rest
      rw [split] at later
      rw [List.cons_append, split]
      simp [dropLineEnd, later]

theorem withoutLineEnd_append_lineFeed (text : String) : withoutLineEnd (text ++ "\n") = text := by
  rw [withoutLineEnd, String.toList_append]
  exact (congrArg String.ofList (dropLineEnd_append_lineFeed text.toList)).trans
    String.ofList_toList

/-- Texts that end in the same character and agree without their line ends are the same. -/
theorem eq_of_dropLineEnd_eq {first second : List Char}
    (last : first.getLast? = second.getLast?)
    (same : dropLineEnd first = dropLineEnd second) : first = second := by
  have ended : ∀ {one two : List Char}, one.getLast? = two.getLast? →
      one = dropLineEnd one ++ ['\n'] → dropLineEnd one = dropLineEnd two → one = two := by
    intro one two last isEnded same
    have lineFeed : two.getLast? = some '\n' := by
      rw [← last, isEnded]
      simp
    obtain ⟨init, rfl⟩ := List.getLast?_eq_some_iff.mp lineFeed
    rw [isEnded, same, dropLineEnd_append_lineFeed]
  rcases dropLineEnd_eq first with plain | isEnded
  · rcases dropLineEnd_eq second with plainToo | isEnded
    · rw [← plain, same, plainToo]
    · exact (ended last.symm isEnded same.symm).symm
  · exact ended last isEnded same

/-! ## The other line ends -/

/-- A text without each carriage return that stands directly before a line feed. -/
def plainLineEnds : List Char → List Char
  | [] => []
  | c :: rest =>
      if c = '\r' ∧ rest.head? = some '\n' then plainLineEnds rest else c :: plainLineEnds rest

theorem plainLineEnds_lineFeed (rest : List Char) :
    plainLineEnds ('\n' :: rest) = '\n' :: plainLineEnds rest := by
  rw [plainLineEnds, if_neg (fun pair => absurd pair.1 (by decide))]

theorem plainLineEnds_pair (rest : List Char) :
    plainLineEnds ('\r' :: '\n' :: rest) = '\n' :: plainLineEnds rest := by
  rw [plainLineEnds, if_pos ⟨rfl, rfl⟩, plainLineEnds_lineFeed]

/-- In a text without line feeds, only a carriage return at its end can be part of a line end. -/
theorem plainLineEnds_append {line : List Char} (unbroken : '\n' ∉ line) {rest : List Char}
    (apart : line.getLast? ≠ some '\r' ∨ rest.head? ≠ some '\n') :
    plainLineEnds (line ++ rest) = line ++ plainLineEnds rest := by
  induction line with
  | nil => rfl
  | cons c line ih =>
      rw [List.mem_cons, not_or] at unbroken
      have noPair : ¬(c = '\r' ∧ (line ++ rest).head? = some '\n') := by
        rintro ⟨rfl, head⟩
        cases line with
        | nil =>
            rcases apart with last | next
            · exact last rfl
            · exact next head
        | cons d line =>
            obtain rfl : d = '\n' := by simpa using head
            exact unbroken.2 List.mem_cons_self
      have apartRest : line.getLast? ≠ some '\r' ∨ rest.head? ≠ some '\n' := by
        refine apart.imp_left fun last lastRest => last ?_
        rw [List.getLast?_cons, lastRest]
        rfl
      rw [List.cons_append, plainLineEnds, if_neg noPair, ih unbroken.2 apartRest,
        List.cons_append]

theorem plainLineEnds_sublist : (text : List Char) → (plainLineEnds text).Sublist text
  | [] => .slnil
  | c :: rest => by
      rw [plainLineEnds]
      split
      · exact (plainLineEnds_sublist rest).cons c
      · exact (plainLineEnds_sublist rest).cons_cons c

/-- Dropping carriage returns leaves the character that a text ends in. -/
theorem getLast?_plainLineEnds : (text : List Char) →
    (plainLineEnds text).getLast? = text.getLast?
  | [] => rfl
  | c :: rest => by
      rw [plainLineEnds]
      split
      · next pair =>
          obtain ⟨others, rfl⟩ := List.head?_eq_some_iff.mp pair.2
          rw [getLast?_plainLineEnds ('\n' :: others), List.getLast?_cons_cons]
      · rw [List.getLast?_cons, getLast?_plainLineEnds rest, List.getLast?_cons]

/-- **A text keeps its carriage returns exactly if none stands directly before a line feed.** -/
theorem plainLineEnds_eq_self_iff : (text : List Char) →
    (plainLineEnds text = text ↔ ¬['\r', '\n'] <:+: text)
  | [] => by simp [plainLineEnds]
  | c :: rest => by
      rw [plainLineEnds, List.infix_cons_iff]
      split
      · next pair =>
          obtain ⟨rfl, head⟩ := pair
          obtain ⟨others, rfl⟩ := List.head?_eq_some_iff.mp head
          constructor
          · intro same
            have shorter := (plainLineEnds_sublist ('\n' :: others)).length_le
            rw [same, List.length_cons] at shorter
            exact absurd shorter (Nat.not_succ_le_self _)
          · intro none
            exact absurd (.inl ⟨others, rfl⟩) none
      · next noPair =>
          rw [List.cons.injEq, plainLineEnds_eq_self_iff rest, not_or]
          constructor
          · rintro ⟨_, later⟩
            refine ⟨?_, later⟩
            rintro ⟨others, split⟩
            obtain ⟨rfl, rfl⟩ := List.cons.inj split
            exact noPair ⟨rfl, rfl⟩
          · rintro ⟨_, later⟩
            exact ⟨rfl, later⟩

/-- The line end of the last line does not hide the loss of a carriage return. -/
theorem dropLineEnd_plainLineEnds_eq_iff (text : List Char) :
    dropLineEnd (plainLineEnds text) = dropLineEnd text ↔ ¬['\r', '\n'] <:+: text := by
  rw [← plainLineEnds_eq_self_iff]
  constructor
  · exact eq_of_dropLineEnd_eq (getLast?_plainLineEnds text)
  · intro same
    rw [same]

/-! ## Splitting and putting together -/

theorem plainLineEnds_finishLine {reversed : List Char} (unbroken : '\n' ∉ reversed)
    (rest : List Char) :
    plainLineEnds (reversed.reverse ++ '\n' :: rest) =
      finishLine reversed ++ '\n' :: plainLineEnds rest := by
  have unbrokenLine : '\n' ∉ reversed.reverse := by rwa [List.mem_reverse]
  unfold finishLine
  split
  · next earlier =>
      rw [List.mem_cons, not_or, ← List.mem_reverse] at unbroken
      -- of two carriage returns before a line feed, only the second is part of the line end
      rw [List.reverse_cons, List.append_assoc, plainLineEnds_append unbroken.2 (.inr (by simp))]
      exact congrArg _ (plainLineEnds_pair rest)
  · next other =>
      rw [plainLineEnds_append unbrokenLine (.inl ?_), plainLineEnds_lineFeed]
      intro last
      rw [List.getLast?_reverse] at last
      obtain ⟨earlier, rfl⟩ := List.head?_eq_some_iff.mp last
      exact other earlier rfl

theorem dropLineEnd_append_lineFeed_append (line : List Char) {rest : List Char}
    (more : rest ≠ []) :
    dropLineEnd (line ++ '\n' :: rest) = line ++ '\n' :: dropLineEnd rest := by
  obtain ⟨d, others, rfl⟩ := List.exists_cons_of_ne_nil more
  induction line with
  | nil => simp [dropLineEnd]
  | cons c line ih =>
      cases line with
      | nil => simp [dropLineEnd]
      | cons d line => simpa [dropLineEnd] using ih

theorem plainLineEnds_ne_nil {text : List Char} (some : text ≠ []) : plainLineEnds text ≠ [] := by
  intro none
  have last := getLast?_plainLineEnds text
  rw [none, List.getLast?_nil, eq_comm, List.getLast?_eq_none_iff] at last
  exact some last

theorem splitLines_ne_nil {text reversed : List Char} (some : text ≠ [] ∨ reversed ≠ []) :
    splitLines text reversed ≠ [] := by
  induction text generalizing reversed with
  | nil =>
      cases reversed with
      | nil => simp at some
      | cons c reversed => exact List.cons_ne_nil _ _
  | cons c text ih =>
      by_cases lineEnd : c = '\n'
      · rw [lineEnd, splitLines]
        exact List.cons_ne_nil _ _
      · rw [splitLines]
        · exact ih (.inr (List.cons_ne_nil _ _))
        · exact lineEnd

theorem toList_intercalate_splitLines (text : List Char) : ∀ reversed : List Char,
    '\n' ∉ reversed →
      ("\n".intercalate ((splitLines text reversed).map String.ofList)).toList =
        dropLineEnd (plainLineEnds (reversed.reverse ++ text)) := by
  induction text with
  | nil =>
      intro reversed unbroken
      have plain : plainLineEnds (reversed.reverse ++ []) = reversed.reverse ++ plainLineEnds [] :=
        plainLineEnds_append (by rwa [List.mem_reverse]) (.inr nofun)
      rw [plain]
      cases reversed with
      | nil => rfl
      | cons c reversed =>
          have ends : dropLineEnd (c :: reversed).reverse = (c :: reversed).reverse := by
            refine (dropLineEnd_eq _).resolve_right fun isEnded => unbroken ?_
            rw [← List.mem_reverse, isEnded]
            exact List.mem_append_right _ List.mem_cons_self
          rw [plainLineEnds, List.append_nil, ends]
          simp [splitLines]
  | cons c rest ih =>
      intro reversed unbroken
      by_cases lineEnd : c = '\n'
      · subst lineEnd
        rw [splitLines, List.map_cons, plainLineEnds_finishLine unbroken]
        by_cases done : rest = []
        · subst done
          simp [splitLines, plainLineEnds, dropLineEnd_append_lineFeed]
        · have more : (splitLines rest []).map String.ofList ≠ [] := by
            rw [Ne, List.map_eq_nil_iff]
            exact splitLines_ne_nil (.inl done)
          rw [String.intercalate_cons_of_ne_nil more, String.toList_append, String.toList_append,
            ih [] List.not_mem_nil,
            dropLineEnd_append_lineFeed_append _ (plainLineEnds_ne_nil done)]
          simp
      · have split : splitLines (c :: rest) reversed = splitLines rest (c :: reversed) := by
          rw [splitLines]
          exact lineEnd
        rw [split, ih (c :: reversed) (by simp [unbroken, Ne.symm lineEnd])]
        simp

/-- **The lines of a text, put together again with line feeds, are the text without the carriage
returns of its line ends and without the line feed it ends in.** -/
theorem toList_intercalate_lines (text : String) :
    ("\n".intercalate (lines text)).toList = dropLineEnd (plainLineEnds text.toList) :=
  toList_intercalate_splitLines text.toList [] (List.not_mem_nil)

end TreeQuery.Text
