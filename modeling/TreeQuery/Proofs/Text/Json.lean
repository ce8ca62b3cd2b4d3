import Mathlib.Data.List.Basic
import TreeQuery.Text.Json

/-!
# Reading JSON texts back

A JSON text shows what it was written from.  A written character is read back with what follows it
(`decodeChar_encodeChar`), so it shows which character it is and where it ends.  A text ends at its
first quotation mark, because the mark is escaped inside (`encodeText_append_inj`); and the texts of
an array end at the first item that no comma precedes (`writeItems_append_inj`).
-/

set_option autoImplicit false

namespace TreeQuery.Text.Json

/-! ## Characters -/

/-- The value of a hexadecimal digit. -/
def digitValue (digit : Char) : Nat :=
  if digit.toNat < 0x61 then digit.toNat - 0x30 else digit.toNat - 0x57

/-- The character that a letter after a backslash stands for. -/
def namedChar : Char → Char
  | 'n' => '\n'
  | 'r' => '\r'
  | 't' => '\t'
  | 'b' => '\x08'
  | 'f' => '\x0c'
  | other => other

/-- Reads one written character: which one it is, and what follows. -/
def decodeChar : List Char → Option (Char × List Char)
  | '\\' :: 'u' :: _ :: _ :: high :: low :: rest =>
      some (Char.ofNat (0x10 * digitValue high + digitValue low), rest)
  | '\\' :: letter :: rest => some (namedChar letter, rest)
  | c :: rest => some (c, rest)
  | [] => none

theorem digitValue_digitChar : ∀ {n : Nat}, n < 0x10 → digitValue n.digitChar = n := by
  decide

theorem decodeChar_encodeChar (c : Char) (rest : List Char) :
    decodeChar ((encodeChar c).toList ++ rest) = some (c, rest) := by
  by_cases quote : c = '\x22'
  · simp [quote, encodeChar, decodeChar, namedChar]
  by_cases backslash : c = '\\'
  · simp [backslash, encodeChar, decodeChar, namedChar]
  by_cases lineFeed : c = '\n'
  · simp [lineFeed, encodeChar, decodeChar, namedChar]
  by_cases carriageReturn : c = '\r'
  · simp [carriageReturn, encodeChar, decodeChar, namedChar]
  by_cases tab : c = '\t'
  · simp [tab, encodeChar, decodeChar, namedChar]
  by_cases backspace : c = '\x08'
  · simp [backspace, encodeChar, decodeChar, namedChar]
  by_cases formFeed : c = '\x0c'
  · simp [formFeed, encodeChar, decodeChar, namedChar]
  rw [encodeChar, if_neg quote, if_neg backslash, if_neg lineFeed, if_neg carriageReturn,
    if_neg tab, if_neg backspace, if_neg formFeed]
  by_cases oneDigit : c.toNat < 0x10
  · have zero : digitValue '0' = 0 := by decide
    have digits : (hexadecimal c.toNat).toList = [c.toNat.digitChar] := by
      rw [hexadecimal, Nat.toDigits_of_lt_base oneDigit, String.toList_ofList]
    rw [if_pos oneDigit]
    simp [digits, decodeChar, zero, digitValue_digitChar oneDigit, Char.ofNat_toNat]
  by_cases twoDigits : c.toNat < 0x20
  · have one : digitValue '1' = 1 := by decide
    have high : c.toNat / 0x10 = 1 := by omega
    have low : c.toNat % 0x10 < 0x10 := Nat.mod_lt _ (by decide)
    have number : 0x10 + c.toNat % 0x10 = c.toNat := by omega
    have digits : (hexadecimal c.toNat).toList = ['1', (c.toNat % 0x10).digitChar] := by
      rw [hexadecimal, Nat.toDigits_eq_if (by decide), if_neg oneDigit, high, String.toList_ofList]
      rfl
    rw [if_neg oneDigit, if_pos twoDigits]
    simp [digits, decodeChar, one, digitValue_digitChar low, number, Char.ofNat_toNat]
  rw [if_neg oneDigit, if_neg twoDigits, String.toList_singleton, List.singleton_append,
    decodeChar]
  · simp [backslash]
  · simp [backslash]

/-- A written character shows which character it is and where it ends. -/
theorem encodeChar_append_inj {c d : Char} {after next : List Char}
    (same : (encodeChar c).toList ++ after = (encodeChar d).toList ++ next) :
    c = d ∧ after = next := by
  have decoded := congrArg decodeChar same
  rw [decodeChar_encodeChar, decodeChar_encodeChar, Option.some.injEq, Prod.mk.injEq] at decoded
  exact decoded

/-- No written character begins with a quotation mark: the mark is escaped. -/
theorem encodeChar_append_ne {c : Char} {after next : List Char} :
    (encodeChar c).toList ++ after ≠ '\x22' :: next := by
  intro same
  have decoded := decodeChar_encodeChar c after
  rw [same, decodeChar, Option.some.injEq, Prod.mk.injEq] at decoded
  · obtain ⟨rfl, _⟩ := decoded
    simp [encodeChar] at same
  · simp
  · simp

/-! ## Texts -/

theorem toList_encodeText (value : String) :
    (encodeText value).toList =
      '\x22' :: (value.toList.flatMap (fun c => (encodeChar c).toList) ++ ['\x22']) := by
  simp [encodeText, String.toList_join, List.flatMap_map]

/-- Written characters end at the first quotation mark that is one. -/
theorem encodedChars_append_inj : {first second after next : List Char} →
    first.flatMap (fun c => (encodeChar c).toList) ++ '\x22' :: after =
      second.flatMap (fun c => (encodeChar c).toList) ++ '\x22' :: next →
    first = second ∧ after = next
  | [], [], _, _, same => ⟨rfl, (List.cons.inj same).2⟩
  | [], d :: second, _, _, same => by
      rw [List.flatMap_cons, List.append_assoc] at same
      exact absurd same.symm encodeChar_append_ne
  | c :: first, [], _, _, same => by
      rw [List.flatMap_cons, List.append_assoc] at same
      exact absurd same encodeChar_append_ne
  | c :: first, d :: second, _, _, same => by
      rw [List.flatMap_cons, List.flatMap_cons, List.append_assoc, List.append_assoc] at same
      obtain ⟨rfl, rest⟩ := encodeChar_append_inj same
      obtain ⟨rfl, behind⟩ := encodedChars_append_inj rest
      exact ⟨rfl, behind⟩

/-- **A written text shows which text it is and where it ends.** -/
theorem encodeText_append_inj {first second : String} {after next : List Char}
    (same : (encodeText first).toList ++ after = (encodeText second).toList ++ next) :
    first = second ∧ after = next := by
  rw [toList_encodeText, toList_encodeText, List.cons_append, List.cons_append, List.append_assoc,
    List.append_assoc] at same
  obtain ⟨chars, behind⟩ := encodedChars_append_inj (List.cons.inj same).2
  exact ⟨String.toList_inj.mp chars, behind⟩

/-! ## Arrays of texts -/

theorem writeItems_cons_append (depth : Nat) (value : String) (rest : List Json)
    (after : List Char) :
    (writeItems depth (.text value :: rest)).toList ++ after =
      ',' :: ((newLine depth).toList ++
        ((encodeText value).toList ++ ((writeItems depth rest).toList ++ after))) := by
  simp [writeItems, writeAt]

theorem writeItems_nil_append (depth : Nat) (after : List Char) :
    (writeItems depth []).toList ++ after = after := by
  simp [writeItems]

/-- The items of an array after the first end where no comma follows. -/
theorem writeItems_append_inj (depth : Nat) {after next : List Char}
    (stops : after.head? ≠ some ',') (stopsToo : next.head? ≠ some ',')
    {first second : List String}
    (same : (writeItems depth (first.map .text)).toList ++ after =
      (writeItems depth (second.map .text)).toList ++ next) :
    first = second ∧ after = next := by
  induction first generalizing second with
  | nil =>
      rw [List.map_nil, writeItems_nil_append] at same
      cases second with
      | nil =>
          rw [List.map_nil, writeItems_nil_append] at same
          exact ⟨rfl, same⟩
      | cons value second =>
          rw [List.map_cons, writeItems_cons_append] at same
          rw [same] at stops
          exact absurd rfl stops
  | cons value first ih =>
      rw [List.map_cons, writeItems_cons_append] at same
      cases second with
      | nil =>
          rw [List.map_nil, writeItems_nil_append] at same
          rw [← same] at stopsToo
          exact absurd rfl stopsToo
      | cons other second =>
          rw [List.map_cons, writeItems_cons_append] at same
          obtain ⟨rfl, rest⟩ :=
            encodeText_append_inj (List.append_cancel_left (List.cons.inj same).2)
          obtain ⟨rfl, behind⟩ := ih rest
          exact ⟨rfl, behind⟩

theorem newLine_append (depth : Nat) (after : List Char) :
    (newLine depth).toList ++ after = '\n' :: (List.replicate (2 * depth) ' ' ++ after) := by
  simp [newLine]

theorem writeAt_array_cons_append (depth : Nat) (value : String) (rest : List Json)
    (after : List Char) :
    (writeAt depth (.array (.text value :: rest))).toList ++ after =
      '[' :: ((newLine (depth + 1)).toList ++ ((encodeText value).toList ++
        ((writeItems (depth + 1) rest).toList ++ ((newLine depth).toList ++ ']' :: after)))) := by
  simp [writeAt]

/-- An array that holds a text does not begin like the array that holds none. -/
theorem writeAt_array_cons_append_ne (depth : Nat) {value : String} {rest : List Json}
    {after next : List Char} :
    (writeAt depth (.array (.text value :: rest))).toList ++ after ≠
      (writeAt depth (.array [])).toList ++ next := by
  intro same
  rw [writeAt_array_cons_append, newLine_append] at same
  have second := congrArg (fun text => text.tail.head?) same
  simp [writeAt] at second

/-- **A written array of texts shows which texts it holds and where it ends.** -/
theorem writeAt_array_append_inj (depth : Nat) {first second : List String}
    {after next : List Char}
    (same : (writeAt depth (.array (first.map .text))).toList ++ after =
      (writeAt depth (.array (second.map .text))).toList ++ next) :
    first = second ∧ after = next := by
  cases first with
  | nil =>
      rw [List.map_nil] at same
      cases second with
      | nil => exact ⟨rfl, List.append_cancel_left same⟩
      | cons value second =>
          rw [List.map_cons] at same
          exact absurd same.symm (writeAt_array_cons_append_ne depth)
  | cons value first =>
      rw [List.map_cons] at same
      cases second with
      | nil =>
          rw [List.map_nil] at same
          exact absurd same (writeAt_array_cons_append_ne depth)
      | cons other second =>
          rw [List.map_cons, writeAt_array_cons_append, writeAt_array_cons_append] at same
          obtain ⟨rfl, rest⟩ :=
            encodeText_append_inj (List.append_cancel_left (List.cons.inj same).2)
          rw [newLine_append, newLine_append] at rest
          obtain ⟨rfl, behind⟩ := writeItems_append_inj (depth + 1) (by simp) (by simp) rest
          exact ⟨rfl, (List.cons.inj (List.append_cancel_left (List.cons.inj behind).2)).2⟩

end TreeQuery.Text.Json
