import TreeQuery.Proofs.Document.Written
import TreeQuery.Proofs.Markup.Tags

/-!
# Content that is read again

What is written between tags is read again item by item.  A text reaches up to the next tag, and an
element up to its closing tag, with its own content in between.  So a list of written fragments adds
the fragments it is reread as to the innermost open element, and reading goes on behind it
(`run_items`).  If an attribute value in it has a character that no document may hold, reading stops
there (`run_items_error`).
-/

set_option autoImplicit false

namespace TreeQuery.Markup

open Text (Position escapeChar)
open Fragment (Written Apart compactAll rereadAll allReadable rereadGiven isReadableGiven)

/-! ## Elements as they are spelled -/

/-- A closing tag with what follows it. -/
def closeTag (name : String) (after : List Char) : List Char :=
  '<' :: '/' :: (name.toList ++ '>' :: after)

theorem head?_closeTag (name : String) (after : List Char) :
    ∀ c ∈ (closeTag name after).head?, c = '<' := by
  rintro _ ⟨⟩
  rfl

theorem lt_length_closeTag (name : String) (after : List Char) :
    after.length + 1 < (closeTag name after).length := by
  simp only [closeTag, List.length_cons, List.length_append]
  omega

theorem toList_compact_empty (name : String) (attributes : List (String × String))
    (after : List Char) : (Fragment.element name attributes []).compact.toList ++ after =
      spellTag name attributes ++ '/' :: '>' :: after := by
  rw [Fragment.toList_compact_element, if_pos rfl, List.append_assoc]
  rfl

theorem toList_compact_filled (name : String) (attributes : List (String × String))
    {children : List Fragment} (filled : children ≠ []) (after : List Char) :
    (Fragment.element name attributes children).compact.toList ++ after =
      spellTag name attributes ++ '>' :: ((compactAll children).toList ++
        closeTag name after) := by
  rw [Fragment.toList_compact_element, if_neg filled, closeTag]
  simp

/-- An element starts with its opening tag. -/
theorem exists_endsTag (name : String) (attributes : List (String × String))
    (children : List Fragment) (after : List Char) : ∃ tail, EndsTag tail ∧
      (Fragment.element name attributes children).compact.toList ++ after =
        spellTag name attributes ++ tail := by
  by_cases empty : children = []
  · subst empty
    exact ⟨_, ⟨_, _, rfl, .inl rfl⟩, toList_compact_empty name attributes after⟩
  · exact ⟨_, ⟨_, _, rfl, .inr rfl⟩, toList_compact_filled name attributes empty after⟩

/-! ## Items of content -/

/-- Reads what is behind a closing tag, given the number of elements that were open inside of the
content before it. -/
def contentBehind (levels : Nat) (expand : Cursor → Reading Unit) (limit : Nat) :
    Nat → Reading Unit
  | 0 => pure ()
  | depth + 1 => contentItems levels expand limit depth

section Items

variable (levels limit depth : Nat) (expand : Cursor → Reading Unit)
variable (reader : Reader) (position : Position)

theorem run_contentItems_opening {c : Char} (starts : startsName c = true) (after : List Char) :
    (contentItems levels expand (limit + 1) depth).run (reader.seeing position ('<' :: c :: after)) =
      (openingTag levels >>= fun isOpen => contentItems levels expand limit
        (if isOpen then depth + 1 else depth)).run (reader.seeing position ('<' :: c :: after)) := by
  obtain ⟨_, noSlash, _, noBang, noQuestion⟩ := ne_of_startsName starts
  conv => lhs; unfold contentItems
  rw [run_bind (run_rest reader position _)]
  split <;> simp_all

/-- An opening tag in content starts an item. -/
theorem run_contentItems_tag {name : String} (named : isLocalName name = true)
    (attributes : List (String × String)) (after : List Char) :
    (contentItems levels expand (limit + 1) depth).run
        (reader.seeing position (spellTag name attributes ++ after)) =
      (openingTag levels >>= fun isOpen => contentItems levels expand limit
        (if isOpen then depth + 1 else depth)).run
          (reader.seeing position (spellTag name attributes ++ after)) := by
  obtain ⟨c, letters, written, starts⟩ := exists_cons_of_isLocalName named
  rw [spellTag, written]
  exact run_contentItems_opening levels limit depth expand reader position starts _

/-- An element in content is an item that starts with its opening tag. -/
theorem run_contentItems_element {name : String} (named : isLocalName name = true)
    (attributes : List (String × String)) (children : List Fragment) (after : List Char) :
    (contentItems levels expand (limit + 1) depth).run (reader.seeing position
        ((Fragment.element name attributes children).compact.toList ++ after)) =
      (openingTag levels >>= fun isOpen => contentItems levels expand limit
        (if isOpen then depth + 1 else depth)).run (reader.seeing position
          ((Fragment.element name attributes children).compact.toList ++ after)) := by
  obtain ⟨tail, _, same⟩ := exists_endsTag name attributes children after
  rw [same]
  exact run_contentItems_tag levels limit depth expand reader position named attributes tail

theorem run_contentItems_closing (after : List Char) :
    (contentItems levels expand (limit + 1) depth).run
        (reader.seeing position ('<' :: '/' :: after)) =
      (closingTag >>= fun _ => contentBehind levels expand limit depth).run
        (reader.seeing position ('<' :: '/' :: after)) := by
  conv => lhs; unfold contentItems
  rw [run_bind (run_rest reader position _)]
  cases depth <;> rfl

theorem run_contentItems_text {c : Char} (other : c ≠ '<') (after : List Char) :
    (contentItems levels expand (limit + 1) depth).run (reader.seeing position (c :: after)) =
      (text levels expand >>= fun _ => contentItems levels expand limit depth).run
        (reader.seeing position (c :: after)) := by
  conv => lhs; unfold contentItems
  rw [run_bind (run_rest reader position _)]
  split <;> simp_all

end Items

/-! ## Readers inside of elements -/

/-- An open element with more children. -/
def OpenElement.adding (children : List Fragment) (element : OpenElement) : OpenElement :=
  { element with children := children.reverse ++ element.children }

theorem OpenElement.adding_cons (child : Fragment) (rest : List Fragment)
    (element : OpenElement) : element.adding (child :: rest) = (element.adding [child]).adding rest := by
  rw [adding, adding, adding, List.reverse_cons, List.append_assoc]
  rfl

/-- A reader that reads no tag but has read one, with the elements that are open and the fragments
that are finished once its text is. -/
structure Reader.Within (opened : List OpenElement) (finished : List Fragment)
    (reader : Reader) : Prop where
  quiet : reader.Quiet
  tag : reader.tag.isSome = true
  opened : reader.flush.opened = opened
  finished : reader.flush.finished = finished

namespace Reader

variable {opened outer : List OpenElement} {finished : List Fragment} {element : OpenElement}
variable {reader : Reader}

theorem within_tagged (quiet : reader.Quiet) (name : String) (position : Position) :
    (reader.tagged name position).Within reader.flush.opened reader.flush.finished := by
  have settled : (reader.tagged name position).text = "" := reader.text_flush
  refine ⟨quiet.tagged name position, rfl, ?_, ?_⟩
  all_goals
    rw [flush_of_text _ settled]
    rfl

theorem Within.opening (within : reader.Within opened finished) (settled : reader.text = "")
    (element : OpenElement) : (reader.opening element).Within (element :: opened) finished := by
  obtain ⟨quiet, tag, rfl, rfl⟩ := within
  refine ⟨⟨quiet.attributes, quiet.declarations⟩, tag, ?_, ?_⟩
  all_goals
    rw [flush_of_text reader settled, flush_of_text (reader.opening element) settled]
    rfl

theorem text_push (reader : Reader) (child : Fragment) : (reader.push child).text = reader.text := by
  unfold push
  split <;> rfl

theorem Within.push (within : reader.Within (element :: outer) finished)
    (settled : reader.text = "") (child : Fragment) :
    (reader.push child).Within (element.adding [child] :: outer) finished := by
  obtain ⟨quiet, tag, opened, rfl⟩ := within
  have still : (reader.push child).text = "" := (reader.text_push child).trans settled
  rw [flush_of_text reader settled] at opened ⊢
  refine ⟨quiet.push child, (tag_push child reader).symm ▸ tag, ?_, ?_⟩
  · rw [flush_of_text _ still, Reader.push, opened]
    rfl
  · rw [flush_of_text _ still, Reader.push, opened]

/-- A text that is not blank becomes a child. -/
theorem Within.adding (within : reader.Within (element :: outer) finished)
    (settled : reader.text = "") {text : List Char}
    (filled : Text.allBlank (String.ofList text) = false) :
    (reader.adding text).Within (element.adding [.text (String.ofList text)] :: outer) finished := by
  obtain ⟨quiet, tag, opened, rfl⟩ := within
  rw [flush_of_text reader settled] at opened ⊢
  have grown : (reader.adding text).text = String.ofList text := by
    rw [Reader.adding, settled]
    exact String.empty_append
  have same : (reader.adding text).opened = element :: outer := opened
  refine ⟨⟨quiet.attributes, quiet.declarations⟩, tag, ?_, ?_⟩
  all_goals
    rw [Reader.flush, grown, filled, if_neg Bool.false_ne_true, Reader.push, same]
    rfl

/-- Closing the innermost element leaves those around it open. -/
theorem Within.closed (within : reader.Within (element :: outer) finished) :
    { reader.flush with opened := outer }.Within outer finished := by
  have settled : { reader.flush with opened := outer }.text = "" := reader.text_flush
  have quiet := within.quiet.flush
  refine ⟨⟨quiet.attributes, quiet.declarations⟩, reader.tag_flush.symm ▸ within.tag, ?_, ?_⟩
  all_goals rw [flush_of_text _ settled]
  exact within.finished

/-- Outside of all elements a finished element is the root. -/
theorem Within.root (within : reader.Within [] []) (settled : reader.text = "")
    (child : Fragment) : (reader.push child).text = "" ∧ (reader.push child).opened = [] ∧
      (reader.push child).finished = [child] := by
  obtain ⟨_, _, outside, new⟩ := within
  rw [flush_of_text reader settled] at outside new
  refine ⟨(reader.text_push child).trans settled, ?_, ?_⟩
  · rw [Reader.push, outside]
  · rw [Reader.push, outside, new]

end Reader

theorem compact_ne_nil {value : String} (content : isContent value = true) :
    value.toList.flatMap escapeChar ≠ [] := by
  rw [isContent, Bool.and_eq_true, Bool.not_eq_true', Text.allBlank] at content
  cases letters : value.toList with
  | nil =>
      rw [letters] at content
      exact absurd content.2.symm Bool.false_ne_true
  | cons c rest =>
      rw [List.flatMap_cons]
      exact List.append_ne_nil_of_left_ne_nil (Text.escapeChar_ne_nil c) _

/-- A text that is not blank is read up to a tag. -/
theorem run_contentItems_value (expand : Cursor → Reading Unit) (limit depth : Nat)
    (reader : Reader) (position : Position) {value : String} (content : isContent value = true)
    {after : List Char} (ends : ∀ c ∈ after.head?, c = '<') :
    ∃ last, (contentItems entityDepth expand (limit + 1) depth).run
        (reader.seeing position ((Fragment.text value).compact.toList ++ after)) =
      (contentItems entityDepth expand limit depth).run
        ((reader.adding (rereadFrom [] false value.toList)).seeing last after) := by
  have allowed := content
  rw [isContent, Bool.and_eq_true] at allowed
  obtain ⟨last, ran⟩ := run_text reader position expand allowed.1 ends
  obtain ⟨c, rest, letters⟩ := List.exists_cons_of_ne_nil (compact_ne_nil content)
  have other : c ≠ '<' := (ne_of_mem_escaped (letters ▸ List.mem_cons_self)).1
  rw [Fragment.compact, Text.toList_escape]
  rw [letters, List.cons_append] at ran ⊢
  exact ⟨last, (run_contentItems_text _ _ _ _ _ _ other _).trans (run_bind ran)⟩

/-! ## Elements -/

section Element

variable {name : String} {attributes : List (String × String)} {children : List Fragment}
variable (written : (Fragment.element name attributes children).Written)
variable (reader : Reader) (position : Position) (after : List Char)
include written

theorem run_openingTag_unreadable (bad : attributes.all isReadableGiven = false) :
    ∃ fault, (openingTag entityDepth).run (reader.seeing position
      ((Fragment.element name attributes children).compact.toList ++ after)) = .error fault := by
  obtain _ | ⟨named, given, _, _, _⟩ := written
  obtain ⟨tail, ends, same⟩ := exists_endsTag name attributes children after
  rw [same]
  exact run_openingTag_error named given reader position bad ends

variable (readable : attributes.all isReadableGiven = true) (quiet : reader.Quiet)
include readable quiet

/-- An element without content is read whole. -/
theorem run_openingTag_whole (empty : children = []) :
    ∃ (next : Reader) (last : Position), next.Within reader.flush.opened reader.flush.finished ∧
      next.text = "" ∧ (openingTag entityDepth).run (reader.seeing position
          ((Fragment.element name attributes children).compact.toList ++ after)) =
        .ok (false, (next.push (.element name (attributes.map rereadGiven) [])).seeing
          last after) := by
  obtain _ | ⟨named, given, names, _, _⟩ := written
  obtain ⟨last, ran⟩ :=
    run_openingTag_empty named given reader position readable names quiet after
  rw [empty, toList_compact_empty]
  exact ⟨_, last, reader.within_tagged quiet name position, reader.text_flush, ran⟩

/-- An element with content is open once its tag is read. -/
theorem run_openingTag_filled :
    ∃ (inner : Reader) (start : Position) (namespaces : List Declaration),
      inner.Within (⟨"", name, attributes.map rereadGiven, namespaces, []⟩ :: reader.flush.opened)
          reader.flush.finished ∧
        inner.text = "" ∧ (openingTag entityDepth).run
            (reader.seeing position (spellTag name attributes ++ '>' :: after)) =
          .ok (true, inner.seeing start after) := by
  obtain _ | ⟨named, given, names, _, _⟩ := written
  obtain ⟨start, namespaces, ran⟩ :=
    run_openingTag_open named given reader position readable names quiet after
  exact ⟨_, start, namespaces,
    (reader.within_tagged quiet name position).opening reader.text_flush _, reader.text_flush, ran⟩

end Element

/-! ## Reading up to what follows -/

/-- Whether content is read up to what follows, with these elements open and these fragments
finished there; there can be a claim about the text that is still growing there. -/
def ReadsTo (expand : Cursor → Reading Unit) (limit depth : Nat) (reader : Reader)
    (after : List Char) (opened : List OpenElement) (finished : List Fragment)
    (claim : String → Prop) : Prop :=
  ∃ (next : Reader) (last : Position) (rest : Nat), after.length < rest ∧
    next.Within opened finished ∧ claim next.text ∧
      (contentItems entityDepth expand limit depth).run reader =
        (contentItems entityDepth expand rest depth).run (next.seeing last after)

/-- Where reading starts, nothing has been read. -/
theorem ReadsTo.start (expand : Cursor → Reading Unit) {limit : Nat} (depth : Nat)
    {reader : Reader} (position : Position) {text : List Char} {opened : List OpenElement}
    {finished : List Fragment} {claim : String → Prop} (within : reader.Within opened finished)
    (claimed : claim reader.text) (enough : text.length < limit) :
    ReadsTo expand limit depth (reader.seeing position text) text opened finished claim :=
  ⟨reader, position, limit, enough, within, claimed, rfl⟩

section Chained

variable {expand : Cursor → Reading Unit} {limit depth : Nat} {reader : Reader}
variable {between : List Char} {opened : List OpenElement} {finished : List Fragment}
variable {claim : String → Prop}
variable (reads : ReadsTo expand limit depth reader between opened finished claim)
include reads

/-- Reading goes on behind what has been read. -/
theorem ReadsTo.trans {after : List Char} {openedLater : List OpenElement}
    {finishedLater : List Fragment} {claimLater : String → Prop}
    (readsOn : ∀ (next : Reader) (last : Position) (rest : Nat), between.length < rest →
      next.Within opened finished → claim next.text →
        ReadsTo expand rest depth (next.seeing last between) after openedLater finishedLater
          claimLater) :
    ReadsTo expand limit depth reader after openedLater finishedLater claimLater := by
  obtain ⟨next, last, rest, enough, within, claimed, ran⟩ := reads
  obtain ⟨final, reached, left, further, inside, stated, ranOn⟩ :=
    readsOn next last rest enough within claimed
  exact ⟨final, reached, left, further, inside, stated, ran.trans ranOn⟩

theorem ReadsTo.imp {weaker : String → Prop} (weakens : ∀ text, claim text → weaker text) :
    ReadsTo expand limit depth reader between opened finished weaker := by
  obtain ⟨next, last, rest, enough, within, claimed, ran⟩ := reads
  exact ⟨next, last, rest, enough, within, weakens next.text claimed, ran⟩

theorem ReadsTo.trans_error
    (stops : ∀ (next : Reader) (last : Position) (rest : Nat), between.length < rest →
      next.Within opened finished → claim next.text →
        ∃ fault, (contentItems entityDepth expand rest depth).run (next.seeing last between) =
          .error fault) :
    ∃ fault, (contentItems entityDepth expand limit depth).run reader = .error fault := by
  obtain ⟨next, last, rest, enough, within, claimed, ran⟩ := reads
  rw [ran]
  exact stops next last rest enough within claimed

end Chained

/-- The closing tag of an element is read behind its children. -/
theorem ReadsTo.closes {expand : Cursor → Reading Unit} {limit depth : Nat} {reader : Reader}
    {name : String} {after : List Char} {attributes : List (String × String)}
    {namespaces : List Declaration} {children : List Fragment} {outer : List OpenElement}
    {finished : List Fragment} {claim : String → Prop}
    (reads : ReadsTo expand limit depth reader (closeTag name after)
      (OpenElement.adding children ⟨"", name, attributes, namespaces, []⟩ :: outer) finished claim)
    (named : isLocalName name = true) :
    ∃ (next : Reader) (last : Position) (rest : Nat), after.length < rest ∧
      next.Within outer finished ∧ next.text = "" ∧
        (contentItems entityDepth expand limit depth).run reader =
          (contentBehind entityDepth expand rest depth).run
            ((next.push (.element name attributes children)).seeing last after) := by
  obtain ⟨inner, position, _ | rest, enough, within, _, reads⟩ := reads
  · exact nomatch enough
  have shorter := lt_length_closeTag name after
  have within : inner.Within (⟨"", name, attributes, namespaces, children.reverse⟩ :: outer)
      finished := by
    rwa [OpenElement.adding, List.append_nil] at within
  obtain ⟨last, ran⟩ := run_closingTag within.quiet within.tag within.opened position named after
  rw [List.reverse_reverse] at ran
  refine ⟨_, last, rest, by omega, within.closed, inner.text_flush, reads.trans ?_⟩
  exact (run_contentItems_closing _ _ _ _ _ _ _).trans (run_bind ran)

/-- Whether content is read, up to what follows it, as more children of whatever element it is
in; there can be a claim about the text that is still growing there. -/
def ReadsAs (expand : Cursor → Reading Unit) (content after : List Char)
    (children : List Fragment) (claim : String → Prop) : Prop :=
  ∀ (limit depth : Nat) {reader : Reader} {element : OpenElement} {outer : List OpenElement}
    {finished : List Fragment} (position : Position),
    reader.Within (element :: outer) finished → reader.text = "" → content.length < limit →
      ReadsTo expand limit depth (reader.seeing position content) after
        (element.adding children :: outer) finished claim

/-- Whether content cannot be read, in whatever element it is. -/
def Unread (expand : Cursor → Reading Unit) (content : List Char) : Prop :=
  ∀ (limit depth : Nat) {reader : Reader} {element : OpenElement} {outer : List OpenElement}
    {finished : List Fragment} (position : Position),
    reader.Within (element :: outer) finished → reader.text = "" → content.length < limit →
      ∃ fault, (contentItems entityDepth expand limit depth).run
        (reader.seeing position content) = .error fault

theorem length_lt_of_spellTag {name : String} {attributes : List (String × String)}
    {content : List Char} {limit : Nat}
    (enough : (spellTag name attributes ++ '>' :: content).length < limit + 1) :
    content.length < limit := by
  rw [List.length_append, List.length_cons] at enough
  omega

section Filled

variable {expand : Cursor → Reading Unit} {name : String} {attributes : List (String × String)}
variable {written : List Fragment} {content after : List Char} {children : List Fragment}
variable {claim : String → Prop}
variable (element : (Fragment.element name attributes written).Written)
variable (limit depth : Nat) {reader : Reader} {outermost : OpenElement}
variable {outer : List OpenElement} {finished : List Fragment} (position : Position)
variable (within : reader.Within (outermost :: outer) finished)
variable (enough : (spellTag name attributes ++ '>' :: content).length < limit)
include element within enough

/-- An element is read once its content can be read. -/
theorem run_element (readable : attributes.all isReadableGiven = true)
    (reads : ReadsAs expand content (closeTag name after) children claim) :
    ReadsTo expand limit depth
      (reader.seeing position (spellTag name attributes ++ '>' :: content)) after
      (outermost.adding [.element name (attributes.map rereadGiven) children] :: outer) finished
      fun text => text = "" := by
  obtain ⟨limit, rfl⟩ := Nat.exists_eq_succ_of_ne_zero (Nat.ne_zero_of_lt enough)
  obtain ⟨inner, start, namespaces, inside, settled, opens⟩ :=
    run_openingTag_filled element reader position content readable within.quiet
  rw [within.opened, within.finished] at inside
  obtain ⟨next, last, rest, further, within, settled, closes⟩ := (reads limit (depth + 1) start
    inside settled (length_lt_of_spellTag enough)).closes element.named
  exact ⟨_, last, rest, further, within.push settled _, (next.text_push _).trans settled,
    (run_contentItems_tag _ _ _ _ _ _ element.named _ _).trans ((run_bind opens).trans closes)⟩

/-- An element is not read if its tag or its content cannot be read. -/
theorem run_element_error (bad : attributes.all isReadableGiven = true → Unread expand content) :
    ∃ fault, (contentItems entityDepth expand limit depth).run
      (reader.seeing position (spellTag name attributes ++ '>' :: content)) = .error fault := by
  obtain ⟨limit, rfl⟩ := Nat.exists_eq_succ_of_ne_zero (Nat.ne_zero_of_lt enough)
  rw [run_contentItems_tag _ _ _ _ _ _ element.named]
  cases readable : attributes.all isReadableGiven with
  | false =>
      obtain ⟨fault, stopped⟩ := run_openingTag_error element.named element.given reader position
        readable ⟨_, content, rfl, .inr rfl⟩
      exact ⟨fault, run_bind_error stopped⟩
  | true =>
      obtain ⟨inner, start, namespaces, inside, settled, opens⟩ :=
        run_openingTag_filled element reader position content readable within.quiet
      rw [run_bind opens]
      exact bad readable limit (depth + 1) start inside settled (length_lt_of_spellTag enough)

end Filled

theorem head?_compactAll {fragments : List Fragment}
    (written : ∀ fragment ∈ fragments, fragment.Written)
    (first : ∀ fragment ∈ fragments.head?, fragment.isText = false) {after : List Char}
    (ends : ∀ c ∈ after.head?, c = '<') :
    ∀ c ∈ ((compactAll fragments).toList ++ after).head?, c = '<' := by
  cases fragments with
  | nil =>
      rw [compactAll]
      exact ends
  | cons fragment rest =>
      cases written fragment List.mem_cons_self with
      | text content => exact nomatch first _ rfl
      | element named given names apart inside =>
          rw [compactAll, String.toList_append, Fragment.toList_compact_element, spellTag]
          rintro _ ⟨⟩
          rfl

theorem ne_nil_of_allReadable {fragments : List Fragment}
    (bad : allReadable fragments = false) : fragments ≠ [] := by
  rintro rfl
  rw [allReadable] at bad
  cases bad

/-! ## Reading items again -/

variable (expand : Cursor → Reading Unit)

mutual
/-- An item that is written is read again. -/
theorem run_item : (fragment : Fragment) → fragment.Written → fragment.isReadable = true →
    ∀ (limit depth : Nat) {reader : Reader} {element : OpenElement} {outer : List OpenElement}
      {finished : List Fragment} (position : Position) {after : List Char},
      reader.Within (element :: outer) finished →
      (fragment.isText = true → reader.text = "" ∧ ∀ c ∈ after.head?, c = '<') →
      (fragment.compact.toList ++ after).length < limit →
        ReadsTo expand limit depth (reader.seeing position (fragment.compact.toList ++ after))
          after (element.adding [fragment.reread] :: outer) finished
          fun text => fragment.isText = false → text = ""
  | .text value, .text content, _ => by
      intro limit depth reader element outer finished position after within free enough
      obtain ⟨limit, rfl⟩ := Nat.exists_eq_succ_of_ne_zero (Nat.ne_zero_of_lt enough)
      obtain ⟨settled, ends⟩ := free rfl
      obtain ⟨last, ran⟩ :=
        run_contentItems_value expand limit depth reader position content ends
      have filled := List.length_pos_iff.mpr (compact_ne_nil content)
      rw [isContent, Bool.and_eq_true, Bool.not_eq_true'] at content
      refine ⟨_, last, limit, ?_, ?_, nofun, ran⟩
      · rw [Fragment.compact, Text.toList_escape, List.length_append] at enough
        omega
      · rw [Fragment.reread]
        exact within.adding settled (allBlank_rereadFrom content.2)
  | .element name attributes children, written, readable => by
      intro limit depth reader element outer finished position after within free enough
      obtain ⟨limit, rfl⟩ := Nat.exists_eq_succ_of_ne_zero (Nat.ne_zero_of_lt enough)
      rw [Fragment.isReadable, Bool.and_eq_true] at readable
      have begins := run_contentItems_element entityDepth limit depth expand reader position
        written.named attributes children after
      rw [Fragment.reread]
      by_cases empty : children = []
      · obtain ⟨next, last, inside, settled, ran⟩ := run_openingTag_whole written reader position
          after readable.1 within.quiet empty
        rw [within.opened, within.finished] at inside
        rw [empty, toList_compact_empty] at enough
        simp only [List.length_append, List.length_cons] at enough
        refine ⟨_, last, limit, by omega, ?_, fun _ => (next.text_push _).trans settled,
          begins.trans (run_bind ran)⟩
        rw [empty, rereadAll]
        exact inside.push settled _
      · rw [toList_compact_filled name attributes empty] at enough ⊢
        obtain ⟨next, last, rest, further, within, settled, ran⟩ := run_element written
          (limit + 1) depth position within enough readable.1
          fun limit depth _ _ _ _ position within settled =>
            run_items children written.inside readable.2 written.apart limit depth position within
              (fun _ _ _ => settled) (head?_closeTag name after)
        exact ⟨next, last, rest, further, within, fun _ => settled, ran⟩

/-- **Items that are written are read again.** -/
theorem run_items : (fragments : List Fragment) → (∀ fragment ∈ fragments, fragment.Written) →
    allReadable fragments = true → Apart fragments →
    ∀ (limit depth : Nat) {reader : Reader} {element : OpenElement} {outer : List OpenElement}
      {finished : List Fragment} (position : Position) {after : List Char},
      reader.Within (element :: outer) finished →
      (∀ fragment ∈ fragments.head?, fragment.isText = true → reader.text = "") →
      (∀ c ∈ after.head?, c = '<') → ((compactAll fragments).toList ++ after).length < limit →
        ReadsTo expand limit depth (reader.seeing position
          ((compactAll fragments).toList ++ after)) after
            (element.adding (rereadAll fragments) :: outer) finished fun _ => True
  | [], _, _, _ => by
      intro limit depth reader element outer finished position after within _ _ enough
      rw [compactAll] at enough ⊢
      rw [rereadAll]
      exact .start expand depth position within trivial enough
  | fragment :: rest, written, readable, apart => by
      intro limit depth reader element outer finished position after within free ends enough
      obtain ⟨first, others⟩ := List.forall_mem_cons.mp written
      rw [allReadable, Bool.and_eq_true] at readable
      rw [compactAll, String.toList_append, List.append_assoc] at enough ⊢
      refine (run_item fragment first readable.1 limit depth position within
        (fun text => ⟨free fragment rfl text,
          head?_compactAll others (apart.isText_head text) ends⟩) enough).trans
            fun next place limit further within settled => ?_
      rw [rereadAll, OpenElement.adding_cons]
      exact run_items rest others readable.2 apart.tail limit depth place within
        (apart.free settled) ends further
end

/-! ## What cannot be read again -/

mutual
/-- An item with an attribute value that cannot be read is not read again. -/
theorem run_item_error : (fragment : Fragment) → fragment.Written → fragment.isReadable = false →
    ∀ (limit depth : Nat) {reader : Reader} {element : OpenElement} {outer : List OpenElement}
      {finished : List Fragment} (position : Position) {after : List Char},
      reader.Within (element :: outer) finished →
      (fragment.compact.toList ++ after).length < limit →
        ∃ fault, (contentItems entityDepth expand limit depth).run
          (reader.seeing position (fragment.compact.toList ++ after)) = .error fault
  | .text _, _, bad => by
      rw [Fragment.isReadable] at bad
      cases bad
  | .element name attributes children, written, bad => by
      intro limit depth reader element outer finished position after within enough
      by_cases empty : children = []
      · obtain ⟨limit, rfl⟩ := Nat.exists_eq_succ_of_ne_zero (Nat.ne_zero_of_lt enough)
        rw [Fragment.isReadable, empty, allReadable, Bool.and_true] at bad
        obtain ⟨fault, stopped⟩ := run_openingTag_unreadable written reader position after bad
        rw [run_contentItems_element _ _ _ _ _ _ written.named]
        exact ⟨fault, run_bind_error stopped⟩
      · rw [toList_compact_filled name attributes empty] at enough ⊢
        refine run_element_error written limit depth position within enough fun readable => ?_
        rw [Fragment.isReadable, readable, Bool.true_and] at bad
        exact fun limit depth _ _ _ _ position within settled =>
          run_items_error children written.inside bad written.apart limit depth position within
            (fun _ _ _ => settled) (head?_closeTag name after)

/-- **Items of which one has an attribute value that cannot be read are not read again.** -/
theorem run_items_error : (fragments : List Fragment) →
    (∀ fragment ∈ fragments, fragment.Written) → allReadable fragments = false →
    Apart fragments →
    ∀ (limit depth : Nat) {reader : Reader} {element : OpenElement} {outer : List OpenElement}
      {finished : List Fragment} (position : Position) {after : List Char},
      reader.Within (element :: outer) finished →
      (∀ fragment ∈ fragments.head?, fragment.isText = true → reader.text = "") →
      (∀ c ∈ after.head?, c = '<') → ((compactAll fragments).toList ++ after).length < limit →
        ∃ fault, (contentItems entityDepth expand limit depth).run
          (reader.seeing position ((compactAll fragments).toList ++ after)) = .error fault
  | [], _, bad, _ => absurd rfl (ne_nil_of_allReadable bad)
  | fragment :: rest, written, bad, apart => by
      intro limit depth reader element outer finished position after within free ends enough
      obtain ⟨first, others⟩ := List.forall_mem_cons.mp written
      rw [compactAll, String.toList_append, List.append_assoc] at enough ⊢
      cases readable : fragment.isReadable with
      | false => exact run_item_error fragment first readable limit depth position within enough
      | true =>
          rw [allReadable, readable, Bool.true_and] at bad
          exact (run_item expand fragment first readable limit depth position within
            (fun text => ⟨free fragment rfl text,
              head?_compactAll others (apart.isText_head text) ends⟩) enough).trans_error
                fun next place limit further within settled =>
                  run_items_error rest others bad apart.tail limit depth place within
                    (apart.free settled) ends further
end

end TreeQuery.Markup
