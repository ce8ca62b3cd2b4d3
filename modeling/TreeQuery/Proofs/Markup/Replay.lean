import Mathlib.Data.List.TakeWhile
import TreeQuery.Proofs.Markup.Items

/-!
# Documents that are read again

What is written as a document is read again from its root to its end.  The root is read like an item
of content; nothing may follow it but white space, comments and instructions, and what is written
after a root is none of these.  So written fragments of which the first is an element are a document
exactly if there is no second one and the attribute values in the first can be read
(`parse_compactAll_iff`).
-/

set_option autoImplicit false

namespace TreeQuery.Markup

open Text (Position escapeChar)
open Fragment (compactAll rereadAll allReadable rereadGiven isReadableGiven)

/-! ## Whole documents -/

/-- Reads the end of a document, behind its root. -/
def ending : Reading Unit := do
  miscellaneous ((← rest).length + 1)
  unless (← rest).isEmpty do stop .unknownToken
  finishText
  let reader ← get
  if reader.opened.isEmpty && !reader.finished.any Fragment.isElement then throw .noRoot
  unless reader.opened.isEmpty do throw .unclosedRoot

theorem exists_content : ∃ expand : Cursor → Reading Unit, content entityDepth =
    rest >>= fun text => contentItems entityDepth expand (text.length + 1) 0 := ⟨_, rfl⟩

section Document

variable (reader : Reader) (position : Position)

/-- White space is skipped up to what is neither a comment nor an instruction. -/
theorem run_miscellaneous (limit : Nat) {spaces : List Char} (blank : spaces.all isSpace = true)
    {text : List Char} (visible : ∀ c ∈ text.head?, isSpace c = false)
    (noComment : "<!--".toList.isPrefixOf text = false)
    (noInstruction : "<?".toList.isPrefixOf text = false) :
    (miscellaneous (limit + 1)).run (reader.seeing position (spaces ++ text)) =
      .ok ((), reader.seeing (spaces.foldl Position.advance position) text) := by
  have skipped : skipSpaces.run (reader.seeing position (spaces ++ text)) =
      .ok ((), reader.seeing (spaces.foldl Position.advance position) text) :=
    run_bind (run_runOf reader position spaces blank visible)
  unfold miscellaneous
  rw [run_bind (run_rest reader position _)]
  split
  · rename_i ended
    obtain ⟨rfl, rfl⟩ := List.append_eq_nil_iff.mp (List.isEmpty_iff.mp ended)
    rfl
  · rw [run_bind skipped, run_bind (run_comesNext _ _ _ _), noComment,
      if_neg Bool.false_ne_true, run_bind (run_comesNext _ _ _ _), noInstruction,
      if_neg Bool.false_ne_true]
    rfl

theorem isPrefixOf_eq_false {c d : Char} (more : List Char) (other : c ≠ d)
    (after : List Char) : ('<' :: d :: more).isPrefixOf ('<' :: c :: after) = false := by
  rw [List.isPrefixOf, List.isPrefixOf, beq_false_of_ne other.symm, Bool.false_and,
    Bool.and_false]

/-- A document that starts with an opening tag has nothing before its root. -/
theorem run_document {c : Char} (starts : startsName c = true) (after : List Char) :
    document.run (reader.seeing position ('<' :: c :: after)) =
      (openingTag entityDepth >>= fun isOpen =>
        if isOpen then content entityDepth >>= fun _ => ending else ending).run
          (reader.seeing position ('<' :: c :: after)) := by
  obtain ⟨_, _, _, noBang, noQuestion⟩ := ne_of_startsName starts
  have visible : ∀ d ∈ ('<' :: c :: after).head?, isSpace d = false := by
    rintro _ ⟨⟩
    decide
  have noMark : "\ufeff".toList.isPrefixOf ('<' :: c :: after) = false := rfl
  have noDeclaration : "<?xml ".toList.isPrefixOf ('<' :: c :: after) = false :=
    isPrefixOf_eq_false ['x', 'm', 'l', ' '] noQuestion after
  have noComment : "<!--".toList.isPrefixOf ('<' :: c :: after) = false :=
    isPrefixOf_eq_false ['-', '-'] noBang after
  have noInstruction : "<?".toList.isPrefixOf ('<' :: c :: after) = false :=
    isPrefixOf_eq_false [] noQuestion after
  have noType : "<!DOCTYPE".toList.isPrefixOf ('<' :: c :: after) = false :=
    isPrefixOf_eq_false ['D', 'O', 'C', 'T', 'Y', 'P', 'E'] noBang after
  have root : "<".toList.isPrefixOf ('<' :: c :: after) = true := rfl
  have nothing : between.run (reader.seeing position ('<' :: c :: after)) =
      .ok ((), reader.seeing position ('<' :: c :: after)) := by
    have skipped : (miscellaneous (('<' :: c :: after).length + 1)).run
        (reader.seeing position ('<' :: c :: after)) =
          .ok ((), reader.seeing position ('<' :: c :: after)) :=
      run_miscellaneous reader position _ List.all_nil visible noComment noInstruction
    unfold between
    rw [run_bind (run_rest reader position _), run_bind skipped,
      run_skipSpaces_none reader position visible]
  unfold document
  rw [run_bind (run_comesNext reader position _ _), noMark, if_neg Bool.false_ne_true,
    run_bind (run_comesNext reader position _ _), noDeclaration, if_neg Bool.false_ne_true,
    run_bind nothing, run_bind (run_comesNext reader position _ _), noType,
    if_neg Bool.false_ne_true, run_bind (run_comesNext reader position _ _), root, if_pos rfl]
  rfl

end Document

section Root

variable {name : String} {attributes : List (String × String)} {children : List Fragment}
variable (written : (Fragment.element name attributes children).Written)
variable (reader : Reader) (position : Position)
include written

/-- The root of a document is what its text starts with. -/
theorem run_document_tag (after : List Char) :
    document.run (reader.seeing position (spellTag name attributes ++ after)) =
      (openingTag entityDepth >>= fun isOpen =>
        if isOpen then content entityDepth >>= fun _ => ending else ending).run
          (reader.seeing position (spellTag name attributes ++ after)) := by
  obtain ⟨c, letters, spelled, starts⟩ := exists_cons_of_isLocalName written.named
  rw [spellTag, spelled]
  exact run_document reader position starts _

/-- A root with an attribute value that cannot be read is not read. -/
theorem run_root_unreadable (bad : attributes.all isReadableGiven = false) {after : List Char}
    (ends : EndsTag after) :
    ∃ fault, document.run (reader.seeing position (spellTag name attributes ++ after)) =
      .error fault := by
  obtain ⟨fault, stopped⟩ :=
    run_openingTag_error written.named written.given reader position bad ends
  rw [run_document_tag written reader position]
  exact ⟨fault, run_bind_error stopped⟩

variable (quiet : reader.Quiet)

section Content

variable {inside after : List Char}

include quiet in
/-- A root is not read if its tag or its content cannot be read. -/
theorem run_root_filled_error
    (bad : attributes.all isReadableGiven = true → ∀ expand, Unread expand inside) :
    ∃ fault, document.run
      (reader.seeing position (spellTag name attributes ++ '>' :: inside)) = .error fault := by
  cases readable : attributes.all isReadableGiven with
  | false =>
      exact run_root_unreadable written reader position readable ⟨_, inside, rfl, .inr rfl⟩
  | true =>
      obtain ⟨inner, start, namespaces, within, free, opens⟩ :=
        run_openingTag_filled written reader position inside readable quiet
      obtain ⟨expand, reads⟩ := exists_content
      obtain ⟨fault, stopped⟩ := bad readable expand _ 0 start within free (Nat.lt_succ_self _)
      rw [run_document_tag written, run_bind opens, if_pos rfl, reads, bind_assoc,
        run_bind (run_rest _ _ _)]
      exact ⟨fault, run_bind_error stopped⟩

variable (settled : reader.text = "") (outside : reader.opened = [])
variable (new : reader.finished = [])
include quiet settled outside new

/-- A root is read once its content can be read. -/
theorem run_root_filled (readable : attributes.all isReadableGiven = true)
    {below : List Fragment} {claim : String → Prop}
    (reads : ∀ expand, ReadsAs expand inside (closeTag name after) below claim) :
    ∃ (next : Reader) (last : Position), next.text = "" ∧ next.opened = [] ∧
      next.finished = [.element name (attributes.map rereadGiven) below] ∧
      document.run (reader.seeing position (spellTag name attributes ++ '>' :: inside)) =
        ending.run (next.seeing last after) := by
  obtain ⟨inner, start, namespaces, within, free, opens⟩ :=
    run_openingTag_filled written reader position inside readable quiet
  rw [reader.flush_of_text settled, outside, new] at within
  obtain ⟨expand, same⟩ := exists_content
  obtain ⟨next, last, _, _, within, free, closes⟩ := (reads expand _ 0 start within free
    (Nat.lt_succ_self _)).closes written.named
  obtain ⟨free, closed, finished⟩ :=
    within.root free (.element name (attributes.map rereadGiven) below)
  rw [run_document_tag written, run_bind opens, if_pos rfl, same, bind_assoc,
    run_bind (run_rest _ _ _), run_bind closes]
  exact ⟨_, last, free, closed, finished, rfl⟩

end Content

variable (after : List Char)
include quiet

/-- A root with an attribute value that cannot be read is not read again. -/
theorem run_root_error
    (bad : (Fragment.element name attributes children).isReadable = false) :
    ∃ fault, document.run (reader.seeing position
      ((Fragment.element name attributes children).compact.toList ++ after)) = .error fault := by
  by_cases empty : children = []
  · rw [Fragment.isReadable, empty, allReadable, Bool.and_true] at bad
    rw [empty, toList_compact_empty]
    exact run_root_unreadable written reader position bad ⟨_, _, rfl, .inl rfl⟩
  · rw [toList_compact_filled name attributes empty]
    refine run_root_filled_error written reader position quiet fun readable expand => ?_
    rw [Fragment.isReadable, readable, Bool.true_and] at bad
    exact fun limit depth _ _ _ _ position within free =>
      run_items_error expand children written.inside bad written.apart limit depth position within
        (fun _ _ _ => free) (head?_closeTag name after)

variable (settled : reader.text = "") (outside : reader.opened = [])
variable (new : reader.finished = [])
include settled outside new

/-- A root that is written is read again. -/
theorem run_root
    (readable : (Fragment.element name attributes children).isReadable = true) :
    ∃ (next : Reader) (last : Position), next.text = "" ∧ next.opened = [] ∧
      next.finished = [(Fragment.element name attributes children).reread] ∧
      document.run (reader.seeing position
          ((Fragment.element name attributes children).compact.toList ++ after)) =
        ending.run (next.seeing last after) := by
  rw [Fragment.isReadable, Bool.and_eq_true] at readable
  rw [Fragment.reread]
  by_cases empty : children = []
  · obtain ⟨next, last, within, free, ran⟩ :=
      run_openingTag_whole written reader position after readable.1 quiet empty
    rw [reader.flush_of_text settled, outside, new] at within
    obtain ⟨free, closed, finished⟩ :=
      within.root free (.element name (attributes.map rereadGiven) [])
    rw [empty, toList_compact_empty] at ran ⊢
    rw [rereadAll, run_document_tag written, run_bind ran]
    exact ⟨_, last, free, closed, finished, rfl⟩
  · rw [toList_compact_filled name attributes empty]
    exact run_root_filled written reader position quiet settled outside new readable.1
      fun expand limit depth _ _ _ _ position within free =>
        run_items expand children written.inside readable.2 written.apart limit depth position
          within (fun _ _ _ => free) (head?_closeTag name after)

end Root

/-! ## Ends of documents -/

section Ending

variable (reader : Reader) (position : Position)

/-- Nothing but white space needs to follow the root. -/
theorem run_ending (settled : reader.text = "") (outside : reader.opened = [])
    {fragment : Fragment} (element : fragment.isElement = true)
    (finished : reader.finished = [fragment]) {spaces : List Char}
    (blank : spaces.all isSpace = true) :
    ∃ next : Reader, next.finished = [fragment] ∧
      ending.run (reader.seeing position spaces) = .ok ((), next) := by
  obtain ⟨last, skipped⟩ : ∃ last, (miscellaneous (spaces.length + 1)).run
      (reader.seeing position spaces) = .ok ((), reader.seeing last []) := by
    have skipped := @run_miscellaneous reader position spaces.length _ blank []
      (by rintro _ ⟨⟩) rfl rfl
    rw [List.append_nil] at skipped
    exact ⟨_, skipped⟩
  have flushed := run_finishText (reader.seeing last [])
  rw [Reader.flush_seeing, reader.flush_of_text settled] at flushed
  have seen : (get : Reading Reader).run (reader.seeing last []) =
    .ok (reader.seeing last [], reader.seeing last []) := rfl
  refine ⟨reader.seeing last [], finished, ?_⟩
  have root : (reader.seeing last []).finished.any Fragment.isElement = true := by
    show reader.finished.any Fragment.isElement = true
    rw [finished, List.any_cons, element, Bool.true_or]
  have closed : (reader.seeing last []).opened.isEmpty = true := by
    show reader.opened.isEmpty = true
    rw [outside]
    rfl
  unfold ending
  rw [run_bind (run_rest _ _ _), run_bind skipped, run_bind (run_rest _ _ _)]
  dsimp only
  rw [if_pos List.isEmpty_nil, run_bind flushed, run_bind seen, root, closed,
    if_neg (by decide), if_pos rfl]
  rfl

/-- Nothing but white space, comments and instructions may follow the root. -/
theorem run_ending_error (spaces : List Char) {d : Char} {after : List Char}
    (blank : spaces.all isSpace = true) (visible : isSpace d = false)
    (noComment : "<!--".toList.isPrefixOf (d :: after) = false)
    (noInstruction : "<?".toList.isPrefixOf (d :: after) = false) :
    ∃ fault, ending.run (reader.seeing position (spaces ++ d :: after)) = .error fault := by
  have first : ∀ c ∈ (d :: after).head?, isSpace c = false := by
    rintro _ ⟨⟩
    exact visible
  unfold ending
  rw [run_bind (run_rest _ _ _),
    run_bind (run_miscellaneous reader position _ blank first noComment noInstruction),
    run_bind (run_rest _ _ _)]
  exact ⟨_, rfl⟩

end Ending

theorem isBlank_of_isSpace {c : Char} (space : isSpace c = true) : Text.isBlank c = true := by
  simp only [isSpace, Bool.or_eq_true, decide_eq_true_iff] at space
  rcases space with ((rfl | rfl) | rfl) | rfl <;> decide

/-- A written text does not consist of white space. -/
theorem exists_not_isSpace {value : String} (content : isContent value = true) :
    ∃ c ∈ value.toList.flatMap escapeChar, isSpace c = false := by
  rw [isContent, Bool.and_eq_true, Bool.not_eq_true', Text.allBlank, List.all_eq_false] at content
  obtain ⟨_, c, listed, visible⟩ := content
  cases escaped : Text.isEscaped c with
  | true =>
      obtain ⟨tail, written⟩ := exists_ampersand escaped
      exact ⟨'&', List.mem_flatMap.mpr ⟨c, listed, written ▸ List.mem_cons_self⟩, by decide⟩
  | false =>
      refine ⟨c, List.mem_flatMap.mpr ⟨c, listed, ?_⟩,
        Bool.eq_false_iff.mpr fun space => visible (isBlank_of_isSpace space)⟩
      rw [Text.escapeChar_of_isEscaped_eq_false escaped]
      exact List.mem_singleton_self c

/-- Whether a text goes on, behind white space, with what is no comment and no instruction. -/
def GoesOn (text : List Char) : Prop :=
  ∃ (spaces : List Char) (d : Char) (further : List Char), text = spaces ++ d :: further ∧
    spaces.all isSpace = true ∧ isSpace d = false ∧
      "<!--".toList.isPrefixOf (d :: further) = false ∧
        "<?".toList.isPrefixOf (d :: further) = false

/-- A tag goes on with its name. -/
theorem goesOn_spellTag {name : String} (named : isLocalName name = true)
    (attributes : List (String × String)) (after : List Char) :
    GoesOn (spellTag name attributes ++ after) := by
  obtain ⟨c, letters, spelled, starts⟩ := exists_cons_of_isLocalName named
  obtain ⟨_, _, _, noBang, noQuestion⟩ := ne_of_startsName starts
  rw [spellTag, spelled]
  exact ⟨[], '<', _, rfl, rfl, rfl, isPrefixOf_eq_false ['-', '-'] noBang _,
    isPrefixOf_eq_false [] noQuestion _⟩

theorem goesOn_compact {fragment : Fragment} (written : fragment.Written) (after : List Char) :
    GoesOn (fragment.compact.toList ++ after) := by
  cases written with
  | @text value content =>
      obtain ⟨c, listed, visible⟩ := exists_not_isSpace content
      have filled : (value.toList.flatMap escapeChar).dropWhile isSpace ≠ [] := by
        intro empty
        have space := List.dropWhile_eq_nil_iff.mp empty c listed
        rw [visible] at space
        cases space
      obtain ⟨d, further, drops⟩ := List.exists_cons_of_ne_nil filled
      have member : d ∈ value.toList.flatMap escapeChar :=
        (List.dropWhile_sublist isSpace).subset (drops ▸ List.mem_cons_self)
      have noTag : '<' ≠ d := (ne_of_mem_escaped member).1.symm
      refine ⟨(value.toList.flatMap escapeChar).takeWhile isSpace, d, further ++ after, ?_,
        List.all_takeWhile, ?_, ?_, ?_⟩
      · rw [Fragment.compact, Text.toList_escape, ← List.cons_append, ← drops,
          ← List.append_assoc, List.takeWhile_append_dropWhile]
      · have first := List.head?_dropWhile_not isSpace (value.toList.flatMap escapeChar)
        rw [drops] at first
        exact first
      all_goals
        show (('<' == d) && _) = false
        rw [beq_false_of_ne noTag, Bool.false_and]
  | @element name attributes children named given names apart inside =>
      obtain ⟨tail, _, same⟩ := exists_endsTag name attributes children after
      rw [same]
      exact goesOn_spellTag named attributes tail

/-! ## Parsing -/

/-- A text is a document if its root can be read and only white space follows, which tells whether
the root is alone. -/
theorem parse_iff_of_root {text : String} {after : List Char} {root : Fragment} {readable : Bool}
    {alone : Prop} {fragments : List Fragment} (element : root.isElement = true)
    (stops : readable = false → ∃ fault, document.run (Reader.start text) = .error fault)
    (reads : readable = true → ∃ (next : Reader) (last : Position), next.text = "" ∧
      next.opened = [] ∧ next.finished = [root] ∧
        document.run (Reader.start text) = ending.run (next.seeing last after))
    (ends : after.all isSpace = true ∧ alone ∨ GoesOn after ∧ ¬alone) :
    parse text = .ok fragments ↔ alone ∧ readable = true ∧ fragments = [root] := by
  unfold parse
  cases readable with
  | false =>
      obtain ⟨fault, stopped⟩ := stops rfl
      rw [stopped]
      simp
  | true =>
      obtain ⟨next, last, free, closed, finished, ran⟩ := reads rfl
      rw [ran]
      rcases ends with ⟨blank, alone⟩ | ⟨⟨spaces, d, further, rfl, blank, visible, marks⟩, alone⟩
      · obtain ⟨reader, found, ended⟩ := run_ending next last free closed element finished blank
        rw [ended]
        dsimp only
        rw [found]
        simp [alone, eq_comm]
      · obtain ⟨fault, stopped⟩ := run_ending_error next last spaces blank visible marks.1 marks.2
        rw [stopped]
        simp [alone]

theorem exists_of_isElement {fragment : Fragment} (element : fragment.isElement = true) :
    ∃ name attributes children, fragment = .element name attributes children := by
  cases fragment with
  | element name attributes children => exact ⟨_, _, _, rfl⟩
  | _ => cases element

/-- **What is written is read again exactly if it is one root with attribute values that can be
read.** -/
theorem parse_compactAll_iff {root : Fragment} (element : root.isElement = true)
    {more : List Fragment} (written : ∀ fragment ∈ root :: more, fragment.Written)
    {fragments : List Fragment} : parse (compactAll (root :: more)) = .ok fragments ↔
      more = [] ∧ root.isReadable = true ∧ fragments = [root.reread] := by
  obtain ⟨first, others⟩ := List.forall_mem_cons.mp written
  obtain ⟨name, attributes, children, rfl⟩ := exists_of_isElement element
  rw [compactAll]
  have begins : Reader.start ((Fragment.element name attributes children).compact ++
      compactAll more) = (Reader.start ((Fragment.element name attributes children).compact ++
        compactAll more)).seeing .start ((Fragment.element name attributes children).compact.toList
          ++ (compactAll more).toList) := by
    rw [← String.toList_append]
    rfl
  have quiet : ∀ text, (Reader.start text).Quiet := fun _ => ⟨rfl, rfl⟩
  have ends : (compactAll more).toList.all isSpace = true ∧ more = [] ∨
      GoesOn (compactAll more).toList ∧ more ≠ [] := by
    cases more with
    | nil => exact .inl ⟨rfl, rfl⟩
    | cons fragment rest =>
        rw [compactAll, String.toList_append]
        exact .inr ⟨goesOn_compact (others fragment List.mem_cons_self) _, nofun⟩
  refine parse_iff_of_root rfl (fun bad => ?_) (fun readable => ?_) ends
  · rw [begins]
    exact run_root_error first _ .start (quiet _) _ bad
  · rw [begins]
    exact run_root first _ .start (quiet _) _ rfl rfl rfl readable

end TreeQuery.Markup
