import Mathlib.Data.List.Basic
import TreeQuery.Proofs.Markup.Contracts
import TreeQuery.Proofs.Markup.Rereading

/-!
# Running on written text

What the steps of reading do on text whose beginning is known.  Tokens and names are read up to
what ends them.  In a written value or text there is no quote, no angle bracket and no ampersand but
that of a reference to a character, so an attribute value is read up to its closing quote and a text
up to the next tag, and they are then as `rereadValue` and `rereadFrom` give them
(`run_attributeValue`, `run_text`).
-/

set_option autoImplicit false

namespace TreeQuery.Markup

open Text (Position isEscaped escapeChar)

/-! ## Running -/

section Rules

variable {α β : Type} {reading : Reading α} {further : α → Reading β} {reader next : Reader}

theorem run_bind {value : α} (ran : reading.run reader = .ok (value, next)) :
    (reading >>= further).run reader = (further value).run next := by
  rw [StateT.run_bind, ran]
  rfl

theorem run_bind_error {fault : Fault} (ran : reading.run reader = .error fault) :
    (reading >>= further).run reader = .error fault := by
  rw [StateT.run_bind, ran]
  rfl

end Rules

/-- The reader with its cursor at a position and a text. -/
def Reader.seeing (reader : Reader) (position : Position) (text : List Char) : Reader :=
  { reader with cursor := ⟨position, text⟩ }

section Tokens

variable (reader : Reader) (position : Position)

theorem run_here (text : List Char) :
    here.run (reader.seeing position text) = .ok (position, reader.seeing position text) := rfl

theorem run_rest (text : List Char) :
    rest.run (reader.seeing position text) = .ok (text, reader.seeing position text) := rfl

theorem run_comesNext (given : String) (text : List Char) :
    (comesNext given).run (reader.seeing position text) =
      .ok (given.toList.isPrefixOf text, reader.seeing position text) := rfl

theorem run_current (c : Char) (after : List Char) :
    current.run (reader.seeing position (c :: after)) =
      .ok (c, reader.seeing position (c :: after)) := rfl

theorem run_skip (text after : List Char) :
    (skip text.length).run (reader.seeing position (text ++ after)) =
      .ok ((), reader.seeing (text.foldl Position.advance position) after) := by
  show Except.ok ((), reader.seeing (((text ++ after).take text.length).foldl _ position)
    ((text ++ after).drop text.length)) = _
  rw [List.take_left, List.drop_left]

theorem run_skip_one (c : Char) (after : List Char) :
    (skip 1).run (reader.seeing position (c :: after)) =
      .ok ((), reader.seeing (position.advance c) after) :=
  run_skip reader position [c] after

theorem run_expect (c : Char) (after : List Char) :
    (expect c).run (reader.seeing position (c :: after)) =
      .ok ((), reader.seeing (position.advance c) after) := by
  unfold expect
  rw [run_bind (run_current reader position c after), if_pos rfl, run_skip_one]

theorem run_runOf {member : Char → Bool} (text : List Char) {after : List Char}
    (inside : text.all member = true) (ends : ∀ c ∈ after.head?, member c = false) :
    (runOf member).run (reader.seeing position (text ++ after)) =
      .ok (text, reader.seeing (text.foldl Position.advance position) after) := by
  have taken : (text ++ after).takeWhile member = text := by
    rw [List.takeWhile_append_of_pos (List.all_eq_true.mp inside)]
    cases after with
    | nil => rw [List.takeWhile_nil, List.append_nil]
    | cons c rest => rw [List.takeWhile_cons_of_neg (by simp [ends c rfl]), List.append_nil]
  unfold runOf
  rw [run_bind (run_rest reader position _), taken, run_bind (run_skip reader position text after)]
  rfl

/-- No white space is skipped where there is none. -/
theorem run_skipSpaces_none {text : List Char} (visible : ∀ c ∈ text.head?, isSpace c = false) :
    skipSpaces.run (reader.seeing position text) = .ok ((), reader.seeing position text) := by
  exact run_bind (run_runOf reader position [] rfl visible)

theorem run_skipSpaces_one {text : List Char} (visible : ∀ c ∈ text.head?, isSpace c = false) :
    skipSpaces.run (reader.seeing position (' ' :: text)) =
      .ok ((), reader.seeing (position.advance ' ') text) := by
  exact run_bind (run_runOf reader position [' '] rfl visible)

theorem run_equals {after : List Char} (visible : ∀ c ∈ after.head?, isSpace c = false) :
    equals.run (reader.seeing position ('=' :: after)) =
      .ok ((), reader.seeing (position.advance '=') after) := by
  unfold equals
  rw [run_bind (run_skipSpaces_none reader position (by rintro _ ⟨⟩; rfl)),
    run_bind (run_expect reader position '=' after), run_skipSpaces_none _ _ visible]

/-- A local name is read up to a character that no name goes on with. -/
theorem run_qualifiedName {name : String} (named : isLocalName name = true) {c : Char}
    (ends : continuesName c = false) (other : c ≠ ':') (after : List Char) :
    qualifiedName.run (reader.seeing position (name.toList ++ c :: after)) =
      .ok (("", name), reader.seeing (name.toList.foldl Position.advance position)
        (c :: after)) := by
  rw [isLocalName, Bool.and_eq_true] at named
  unfold qualifiedName
  rw [run_bind (run_here reader position _),
    run_bind (run_runOf reader position _ named.2 (by rintro _ ⟨⟩; exact ends)),
    run_bind (run_comesNext reader _ ":" (c :: after))]
  have noColon : ":".toList.isPrefixOf (c :: after) = false := by
    show ((':' == c) && [].isPrefixOf after) = false
    rw [beq_false_of_ne other.symm, Bool.false_and]
  rw [noColon, if_neg Bool.false_ne_true]
  dsimp only
  rw [if_pos named.1, String.ofList_toList]
  rfl

/-- What is done elsewhere is done from there, and reading goes on here. -/
theorem run_elsewhere {α : Type} {reading : Reading α} {start : Position} {inner : List Char}
    {value : α} {next : Reader} (text : List Char)
    (ran : reading.run (reader.seeing start inner) = .ok (value, next)) :
    (elsewhere ⟨start, inner⟩ reading).run (reader.seeing position text) =
      .ok (value, next.seeing position text) := by
  show (moveTo ⟨start, inner⟩ >>= fun _ => reading >>= fun value =>
    moveTo ⟨position, text⟩ >>= fun _ => pure value).run (reader.seeing position text) = _
  have moved : (moveTo ⟨start, inner⟩).run (reader.seeing position text) =
    .ok ((), reader.seeing start inner) := rfl
  rw [run_bind moved, run_bind ran]
  rfl

/-! ## Runs of characters -/

section Scan

variable {goesOn : List Char → Bool} {on : Char → Bool}
variable (looks : ∀ c rest, goesOn (c :: rest) = on c)
include looks

theorem scan_append : (text : List Char) → {position : Position} → {after : List Char} →
    text.all isDocumentChar = true → text.all on = true →
    (∀ c ∈ after.head?, isDocumentChar c = true ∧ on c = false) →
      scan goesOn (text ++ after) position =
        .ok (text, ⟨text.foldl Position.advance position, after⟩)
  | [], position, [], _, _, _ => rfl
  | [], position, c :: after, _, _, ends => by
      obtain ⟨allowed, ended⟩ := ends c rfl
      rw [List.nil_append, scan, allowed, if_neg (by decide), looks, ended,
        if_neg Bool.false_ne_true]
      rfl
  | c :: text, position, after, allowed, inside, ends => by
      rw [List.all_cons, Bool.and_eq_true] at allowed inside
      rw [List.cons_append, scan, allowed.1, if_neg (by decide), looks, if_pos inside.1,
        scan_append text allowed.2 inside.2 ends]
      rfl

/-- Reading stops at a character that no document may hold. -/
theorem scan_append_error : (text : List Char) → {position : Position} → {after : List Char} →
    text.all isDocumentChar = false → text.all on = true →
      ∃ fault, scan goesOn (text ++ after) position = .error fault
  | [], _, _, bad, _ => nomatch bad
  | c :: text, position, after, bad, inside => by
      rw [List.all_cons, Bool.and_eq_true] at inside
      rw [List.cons_append, scan, looks, if_pos inside.1]
      cases allowed : isDocumentChar c with
      | false => exact ⟨_, rfl⟩
      | true =>
          rw [List.all_cons, allowed, Bool.true_and] at bad
          obtain ⟨fault, stopped⟩ := scan_append_error text bad inside.2
          rw [if_neg (by decide), stopped]
          exact ⟨fault, rfl⟩

theorem run_runWhile (text : List Char) {after : List Char}
    (allowed : text.all isDocumentChar = true) (inside : text.all on = true)
    (ends : ∀ c ∈ after.head?, isDocumentChar c = true ∧ on c = false) :
    (runWhile goesOn).run (reader.seeing position (text ++ after)) =
      .ok (⟨position, text⟩, reader.seeing (text.foldl Position.advance position) after) := by
  show (liftM (scan goesOn (text ++ after) position) >>= fun scanned =>
    moveTo scanned.2 >>= fun _ => pure (⟨position, scanned.1⟩ : Cursor)).run _ = _
  rw [scan_append looks text allowed inside ends]
  rfl

theorem run_runWhile_error (text after : List Char) (bad : text.all isDocumentChar = false)
    (inside : text.all on = true) :
    ∃ fault, (runWhile goesOn).run (reader.seeing position (text ++ after)) = .error fault := by
  obtain ⟨fault, stopped⟩ := scan_append_error looks text bad inside
  refine ⟨fault, ?_⟩
  show (liftM (scan goesOn (text ++ after) position) >>= fun scanned =>
    moveTo scanned.2 >>= fun _ => pure (⟨position, scanned.1⟩ : Cursor)).run _ = _
  rw [stopped]
  rfl

end Scan

/-! ## Escaped characters -/

theorem all_escapeChar (c : Char) : (escapeChar c).all isDocumentChar = isDocumentChar c := by
  cases plain : isEscaped c with
  | false => rw [Text.escapeChar_of_isEscaped_eq_false plain, List.all_cons, List.all_nil,
      Bool.and_true]
  | true => rcases Text.isEscaped_iff.mp plain with rfl | rfl | rfl | rfl | rfl <;> rfl

/-- Escaping changes nothing about whether a document may hold a text. -/
theorem all_escaped (text : List Char) :
    (text.flatMap escapeChar).all isDocumentChar = text.all isDocumentChar := by
  rw [List.all_flatMap]
  exact congrArg text.all (funext all_escapeChar)

theorem ne_of_mem_escaped {text : List Char} {c : Char} (listed : c ∈ text.flatMap escapeChar) :
    c ≠ '<' ∧ c ≠ '>' ∧ c ≠ '\x22' := by
  obtain ⟨d, _, written⟩ := List.mem_flatMap.mp listed
  refine ⟨?_, ?_, ?_⟩
  all_goals
    rintro rfl
    rcases Text.not_isEscaped_of_mem_escapeChar written with ampersand | plain
    · exact absurd ampersand (by decide)
    · exact absurd plain (by decide)

/-! ## Attribute values -/

theorem run_openingQuote (after : List Char) :
    openingQuote.run (reader.seeing position ('\x22' :: after)) =
      .ok ('\x22', reader.seeing (position.advance '\x22') after) := by
  unfold openingQuote
  rw [run_bind (run_current reader position _ after), if_pos (by decide),
    run_bind (run_skip_one reader position _ after)]
  rfl

theorem goesOn_quoted (c : Char) (rest : List Char) :
    (decide ((c :: rest).head? ≠ some '\x22') && decide ((c :: rest).head? ≠ some '<')) =
      (decide (c ≠ '\x22') && decide (c ≠ '<')) := by
  simp

theorem all_quoted (value : List Char) : (value.flatMap escapeChar).all (fun c =>
    decide (c ≠ '\x22') && decide (c ≠ '<')) = true := by
  refine List.all_eq_true.mpr fun c listed => ?_
  obtain ⟨noTag, _, noQuote⟩ := ne_of_mem_escaped listed
  simp [noTag, noQuote]

/-- A quoted value is read up to its closing quote. -/
theorem run_quotedValue {value : List Char} (allowed : value.all isDocumentChar = true)
    (after : List Char) :
    quotedValue.run (reader.seeing position
        ('\x22' :: (value.flatMap escapeChar ++ '\x22' :: after))) =
      .ok (⟨position.advance '\x22', value.flatMap escapeChar⟩,
        reader.seeing (((value.flatMap escapeChar).foldl Position.advance
          (position.advance '\x22')).advance '\x22') after) := by
  have ends : ∀ c ∈ ('\x22' :: after).head?, isDocumentChar c = true ∧
      (decide (c ≠ '\x22') && decide (c ≠ '<')) = false := by
    rintro _ ⟨⟩
    decide
  unfold quotedValue
  rw [run_bind (run_openingQuote reader position _),
    run_bind (run_runWhile reader _ goesOn_quoted _ ((all_escaped value).trans allowed)
      (all_quoted value) ends), run_bind (run_expect reader _ _ after)]
  rfl

/-- A quoted value with a character that no document may hold is not read. -/
theorem run_quotedValue_error {value : List Char} (bad : value.all isDocumentChar = false)
    (after : List Char) :
    ∃ fault, quotedValue.run (reader.seeing position
      ('\x22' :: (value.flatMap escapeChar ++ after))) = .error fault := by
  obtain ⟨fault, stopped⟩ : ∃ fault, (runWhile fun rest => rest.head? ≠ some '\x22' &&
      rest.head? ≠ some '<').run (reader.seeing (position.advance '\x22')
        (value.flatMap escapeChar ++ after)) = .error fault :=
    run_runWhile_error reader _ goesOn_quoted _ after ((all_escaped value).trans bad)
      (all_quoted value)
  refine ⟨fault, ?_⟩
  unfold quotedValue
  rw [run_bind (run_openingQuote reader position _), run_bind_error stopped]

theorem reference?_escapeChar {c : Char} (escaped : isEscaped c = true) (after : List Char) :
    reference? (escapeChar c ++ after) = some (.character c, (escapeChar c).length) := by
  rcases Text.isEscaped_iff.mp escaped with rfl | rfl | rfl | rfl | rfl <;> rfl

theorem exists_ampersand {c : Char} (escaped : isEscaped c = true) :
    ∃ tail, escapeChar c = '&' :: tail := by
  rcases Text.isEscaped_iff.mp escaped with rfl | rfl | rfl | rfl | rfl <;> exact ⟨_, rfl⟩

theorem run_reference {c : Char} (escaped : isEscaped c = true) (after : List Char) :
    reference.run (reader.seeing position (escapeChar c ++ after)) =
      .ok (.inl c, reader.seeing ((escapeChar c).foldl Position.advance position) after) := by
  unfold reference
  rw [run_bind (run_rest reader position _), reference?_escapeChar escaped after]
  dsimp only
  rw [run_bind (run_skip reader position _ after)]
  rfl

theorem head?_escaped (text : List Char) :
    (text.flatMap escapeChar).head? = some '\n' ↔ text.head? = some '\n' := by
  cases text with
  | nil => rfl
  | cons c rest =>
      rw [List.flatMap_cons, List.head?_cons]
      cases plain : isEscaped c with
      | false => rw [Text.escapeChar_of_isEscaped_eq_false plain]; rfl
      | true =>
          rcases Text.isEscaped_iff.mp plain with rfl | rfl | rfl | rfl | rfl <;>
            simp [escapeChar]

theorem ne_ampersand {c : Char} (plain : isEscaped c = false) : c ≠ '&' := by
  rintro rfl
  exact absurd plain (by decide)

/-- The steps of reading an attribute value go through its characters as they were written. -/
theorem run_attributeChars (nested : Option (Reading (List Char))) : (value : List Char) →
    {limit : Nat} → (position : Position) → value.length ≤ limit →
    ∃ last, (attributeChars entityDepth nested limit).run
      (reader.seeing position (value.flatMap escapeChar)) =
        .ok (rereadValue value, reader.seeing last [])
  | [], 0, position, _ => ⟨position, rfl⟩
  | [], limit + 1, position, _ => ⟨position, rfl⟩
  | c :: value, limit + 1, position, enough => by
      have enough := Nat.le_of_succ_le_succ enough
      rw [List.flatMap_cons]
      unfold attributeChars
      rw [run_bind (run_rest reader position _)]
      cases escaped : isEscaped c with
      | true =>
          obtain ⟨tail, written⟩ := exists_ampersand escaped
          have ran := run_reference reader position escaped (value.flatMap escapeChar)
          rw [written, List.cons_append] at ran ⊢
          obtain ⟨last, others⟩ := run_attributeChars nested value _ enough
          refine ⟨last, ?_⟩
          split
          · rename_i ended
            cases ended
          · rw [run_bind (run_here reader position _), run_bind ran]
            dsimp only
            rw [if_neg (by simp), run_bind others, if_neg (Nat.lt_irrefl _),
              rereadValue_of_isEscaped escaped]
            rfl
          · rename_i other same
            exact (other (List.cons.inj same).1.symm).elim
      | false =>
          rw [Text.escapeChar_of_isEscaped_eq_false escaped, List.singleton_append]
          obtain ⟨last, others⟩ := run_attributeChars nested value _ enough
          refine ⟨last, ?_⟩
          split
          · rename_i ended
            cases ended
          · rename_i ampersand
            exact absurd (List.cons.inj ampersand).1 (ne_ampersand escaped)
          · rename_i first following _ same
            obtain ⟨rfl, rfl⟩ := List.cons.inj same
            rw [run_bind (run_skip_one reader position _ _), run_bind others, rereadValue]
            have ended : (decide (c = '\r') &&
                decide ((value.flatMap escapeChar).head? = some '\n')) = true ↔
                  c = '\r' ∧ value.head? = some '\n' := by
              rw [Bool.and_eq_true, decide_eq_true_iff, decide_eq_true_iff, head?_escaped]
            by_cases dropped : c = '\r' ∧ value.head? = some '\n'
            · rw [if_pos (ended.mpr dropped), if_pos dropped]
              rfl
            · rw [if_neg (ended.not.mpr dropped), if_neg dropped]
              rfl

theorem length_le_escaped (text : List Char) :
    text.length ≤ (text.flatMap escapeChar).length := by
  induction text with
  | nil => exact Nat.le_refl _
  | cons c rest ih =>
      have written := List.length_pos_iff.mpr (Text.escapeChar_ne_nil c)
      rw [List.flatMap_cons, List.length_append, List.length_cons]
      omega

theorem run_attributeValue (value : List Char) :
    ∃ last, (attributeValue entityDepth).run
      (reader.seeing position (value.flatMap escapeChar)) =
        .ok (rereadValue value, reader.seeing last []) := by
  unfold entityDepth attributeValue
  rw [run_bind (run_rest reader position _)]
  exact run_attributeChars reader _ value position
    (Nat.le_succ_of_le (length_le_escaped value))

/-! ## Texts -/

theorem isEmpty_escaped (text : List Char) : (text.flatMap escapeChar).isEmpty = text.isEmpty := by
  cases text with
  | nil => rfl
  | cons c rest =>
      obtain ⟨first, others, written⟩ := List.exists_cons_of_ne_nil (Text.escapeChar_ne_nil c)
      rw [List.flatMap_cons, written]
      rfl

/-- The reader with more text. -/
def Reader.adding (text : List Char) (reader : Reader) : Reader :=
  { reader with text := reader.text ++ String.ofList text }

/-- The steps of reading a text go through its characters as they were written. -/
theorem run_textChars (expand : Cursor → Reading Unit) : (value : List Char) → {limit : Nat} →
    (before : List Char) → (asIs : Bool) → (position : Position) → value.length ≤ limit →
    ∃ last, (textChars entityDepth expand limit before asIs).run
      (reader.seeing position (value.flatMap escapeChar)) =
        .ok ((), (reader.adding (rereadFrom before asIs value)).seeing last [])
  | [], 0, _, _, position, _ => ⟨position, rfl⟩
  | [], limit + 1, _, _, position, _ => ⟨position, rfl⟩
  | c :: value, limit + 1, before, asIs, position, enough => by
      have enough := Nat.le_of_succ_le_succ enough
      rw [List.flatMap_cons, rereadFrom]
      unfold textChars
      rw [run_bind (run_rest reader position _)]
      cases escaped : isEscaped c with
      | true =>
          obtain ⟨tail, written⟩ := exists_ampersand escaped
          have ran := run_reference reader position escaped (value.flatMap escapeChar)
          rw [written, List.cons_append] at ran ⊢
          obtain ⟨last, others⟩ := run_textChars expand value (c :: before) true _ enough
          refine ⟨last, ?_⟩
          split
          · rename_i ended
            cases ended
          · rw [run_bind ran]
            dsimp only
            rw [if_neg (Nat.lt_irrefl _), others, if_pos rfl]
          · rename_i other same
            exact (other (List.cons.inj same).1.symm).elim
      | false =>
          rw [Text.escapeChar_of_isEscaped_eq_false escaped, List.singleton_append]
          obtain ⟨last, others⟩ := run_textChars expand value
            (if asIs then c :: before else pushLine before c value.isEmpty) false _ enough
          refine ⟨last, ?_⟩
          split
          · rename_i ended
            cases ended
          · rename_i ampersand
            exact absurd (List.cons.inj ampersand).1 (ne_ampersand escaped)
          · rename_i first following _ same
            obtain ⟨rfl, rfl⟩ := List.cons.inj same
            rw [run_bind (run_skip_one reader position _ _), isEmpty_escaped, others,
              if_neg Bool.false_ne_true]

theorem mem_of_occursIn {text : List Char} {c : Char} (inside : c ∈ text) :
    (whole : List Char) → occursIn text whole = true → c ∈ whole
  | [], occurs => by
      rw [List.isEmpty_iff.mp occurs] at inside
      cases inside
  | d :: rest, occurs => by
      rw [occursIn, Bool.or_eq_true] at occurs
      rcases occurs with here | later
      · exact (List.isPrefixOf_iff_prefix.mp here).subset inside
      · exact List.mem_cons_of_mem _ (mem_of_occursIn inside rest later)

/-- A text is read up to the next tag. -/
theorem run_text (expand : Cursor → Reading Unit) {value : List Char}
    (allowed : value.all isDocumentChar = true) {after : List Char}
    (ends : ∀ c ∈ after.head?, c = '<') :
    ∃ last, (text entityDepth expand).run
      (reader.seeing position (value.flatMap escapeChar ++ after)) =
        .ok ((), (reader.adding (rereadFrom [] false value)).seeing last after) := by
  have looks : ∀ (c : Char) (rest : List Char),
      decide ((c :: rest).head? ≠ some '<') = decide (c ≠ '<') := by simp
  have inside : (value.flatMap escapeChar).all (fun c => decide (c ≠ '<')) = true :=
    List.all_eq_true.mpr fun c listed => decide_eq_true (ne_of_mem_escaped listed).1
  have ended : ∀ c ∈ after.head?, isDocumentChar c = true ∧ decide (c ≠ '<') = false := by
    intro c first
    rw [ends c first]
    decide
  have bracket : '>' ∈ "]]>".toList := by decide
  have noBrackets : occursIn "]]>".toList (value.flatMap escapeChar) = false :=
    Bool.eq_false_iff.mpr fun occurs =>
      (ne_of_mem_escaped (mem_of_occursIn bracket _ occurs)).2.1 rfl
  obtain ⟨last, read⟩ := run_textChars reader expand value [] false position
    (Nat.le_succ_of_le (length_le_escaped value))
  refine ⟨(value.flatMap escapeChar).foldl Position.advance position, ?_⟩
  unfold text
  rw [run_bind (run_runWhile reader position looks _ ((all_escaped value).trans allowed) inside
    ended), noBrackets, if_neg Bool.false_ne_true]
  rw [run_elsewhere reader _ after read]
  rfl

end Tokens

end TreeQuery.Markup
