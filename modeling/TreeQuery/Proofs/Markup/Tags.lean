import TreeQuery.Proofs.Markup.Runs
import TreeQuery.Proofs.Markup.Soundness

/-!
# Tags that are read again

An opening tag that is spelled with local names and distinct attributes is read up to its end if no
attribute value has a character that no document may hold, and the element gets its attributes
as they are reread (`run_openingTag_empty`, `run_openingTag_open`); otherwise reading stops in it
(`run_openingTag_error`).  A closing tag finishes the innermost open element (`run_closingTag`).
-/

set_option autoImplicit false

namespace TreeQuery.Markup

open Text (Position escapeChar)
open Fragment (rereadGiven isReadableGiven)

/-! ## Names -/

theorem exists_cons_of_isLocalName {name : String} (named : isLocalName name = true) :
    ∃ c rest, name.toList = c :: rest ∧ startsName c = true := by
  rw [isLocalName, Bool.and_eq_true] at named
  cases letters : name.toList with
  | nil =>
      rw [letters] at named
      exact absurd named.1 Bool.false_ne_true
  | cons c rest =>
      rw [letters] at named
      exact ⟨c, rest, rfl, named.1⟩

/-- A name does not start with white space or with a character that markup starts or ends with. -/
theorem ne_of_startsName {c : Char} (starts : startsName c = true) :
    isSpace c = false ∧ c ≠ '/' ∧ c ≠ '>' ∧ c ≠ '!' ∧ c ≠ '?' := by
  refine ⟨?_, ?_, ?_, ?_, ?_⟩
  · rw [Bool.eq_false_iff]
    intro space
    simp only [isSpace, Bool.or_eq_true, decide_eq_true_iff] at space
    rcases space with ((rfl | rfl) | rfl) | rfl <;> exact absurd starts (by decide)
  all_goals
    rintro rfl
    exact absurd starts (by decide)

/-! ## Attributes -/

section Attributes

variable (reader : Reader) (position : Position)

/-- The name of an attribute in a tag is read up to the quote of its value. -/
theorem run_tagAttributes_name {name : String} (named : isLocalName name = true)
    (levels limit : Nat) (following : List Char) :
    ∃ last, (tagAttributes levels (limit + 1)).run
        (reader.seeing position (' ' :: (name.toList ++ '=' :: '\x22' :: following))) =
      (do
        let written ← quotedValue
        let value ← elsewhere written (attributeValue levels)
        giveAttribute ⟨"", name, String.ofList value, position.advance ' '⟩
        tagAttributes levels limit).run (reader.seeing last ('\x22' :: following)) := by
  obtain ⟨c, letters, written, starts⟩ := exists_cons_of_isLocalName named
  obtain ⟨noSpace, noSlash, noEnd, _⟩ := ne_of_startsName starts
  have first : ∀ d ∈ (name.toList ++ '=' :: '\x22' :: following).head?, isSpace d = false := by
    rw [written]
    rintro _ ⟨⟩
    exact noSpace
  have seen : current.run (reader.seeing (position.advance ' ')
      (name.toList ++ '=' :: '\x22' :: following)) = .ok (c, reader.seeing (position.advance ' ')
        (name.toList ++ '=' :: '\x22' :: following)) := by
    rw [written]
    rfl
  refine ⟨(name.toList.foldl Position.advance (position.advance ' ')).advance '=', ?_⟩
  conv => lhs; unfold tagAttributes
  rw [run_bind (run_rest reader position _)]
  dsimp only
  rw [run_bind (run_skipSpaces_one reader position first), run_bind (run_here reader _ _),
    run_bind seen, if_neg noSlash, if_neg noEnd, if_pos (by decide),
    run_bind (run_qualifiedName reader _ named (by decide) (by decide) _)]
  dsimp only
  rw [run_bind (run_equals reader _ (by rintro _ ⟨⟩; decide))]

/-- The reader with more attributes of the tag that is being read. -/
def Reader.giving (given : List TagAttribute) (reader : Reader) : Reader :=
  { reader with attributes := reader.attributes ++ given }

theorem run_giveAttribute {name : String} (other : name ≠ "xmlns") (value : String)
    (start : Position) : (giveAttribute ⟨"", name, value, start⟩).run reader =
      .ok ((), reader.giving [⟨"", name, value, start⟩]) := by
  unfold giveAttribute
  rw [if_neg (by simp), if_neg other]
  rfl

/-- One attribute of a tag is read again. -/
theorem run_tagAttributes_attribute {pair : String × String} (given : isGiven pair = true)
    (readable : isReadableGiven pair = true) (limit : Nat) (after : List Char) :
    ∃ start last, (tagAttributes entityDepth (limit + 1)).run
        (reader.seeing position (spellAttribute pair ++ after)) =
      (tagAttributes entityDepth limit).run ((reader.giving
        [⟨"", pair.1, (rereadGiven pair).2, start⟩]).seeing last after) := by
  obtain ⟨name, value⟩ := pair
  rw [isGiven, Bool.and_eq_true, decide_eq_true_iff] at given
  have spelled : spellAttribute (name, value) ++ after = ' ' :: (name.toList ++ '=' :: '\x22' ::
      (value.toList.flatMap escapeChar ++ '\x22' :: after)) := by
    simp [spellAttribute]
  obtain ⟨place, ran⟩ := run_tagAttributes_name reader position given.1 entityDepth limit
    (value.toList.flatMap escapeChar ++ '\x22' :: after)
  obtain ⟨_, valued⟩ := run_attributeValue reader (place.advance '\x22') value.toList
  refine ⟨position.advance ' ', ((value.toList.flatMap escapeChar).foldl Position.advance
    (place.advance '\x22')).advance '\x22', ?_⟩
  rw [spelled, ran, run_bind (run_quotedValue reader place readable after),
    run_bind (run_elsewhere reader _ after valued), run_bind (run_giveAttribute _ given.2 _ _)]
  rfl

theorem run_tagAttributes_attribute_error {pair : String × String} (given : isGiven pair = true)
    (bad : isReadableGiven pair = false) (levels limit : Nat) (after : List Char) :
    ∃ fault, (tagAttributes levels (limit + 1)).run
      (reader.seeing position (spellAttribute pair ++ after)) = .error fault := by
  obtain ⟨name, value⟩ := pair
  rw [isGiven, Bool.and_eq_true] at given
  have spelled : spellAttribute (name, value) ++ after = ' ' :: (name.toList ++ '=' :: '\x22' ::
      (value.toList.flatMap escapeChar ++ '\x22' :: after)) := by
    simp [spellAttribute]
  obtain ⟨place, ran⟩ := run_tagAttributes_name reader position given.1 levels limit
    (value.toList.flatMap escapeChar ++ '\x22' :: after)
  obtain ⟨fault, stopped⟩ := run_quotedValue_error reader place bad ('\x22' :: after)
  exact ⟨fault, by rw [spelled, ran, run_bind_error stopped]⟩

/-- The attributes of a tag are read again. -/
theorem run_tagAttributes : (attributes : List (String × String)) →
    attributes.all isGiven = true → attributes.all isReadableGiven = true → {limit : Nat} →
    attributes.length ≤ limit → (reader : Reader) → (position : Position) → (after : List Char) →
    ∃ (given : List TagAttribute) (last : Position) (rest : Nat),
      given.map TagAttribute.pair = attributes.map rereadGiven ∧
        (∀ next ∈ given, next.qualifier = "") ∧
        (tagAttributes entityDepth (limit + 1)).run
            (reader.seeing position (attributes.flatMap spellAttribute ++ after)) =
          (tagAttributes entityDepth (rest + 1)).run
            ((reader.giving given).seeing last after)
  | [], _, _, limit, _, reader, position, after => by
      refine ⟨[], position, limit, rfl, nofun, ?_⟩
      rw [Reader.giving, List.append_nil]
      rfl
  | pair :: attributes, given, readable, 0, enough, _, _, _ => nomatch enough
  | pair :: attributes, given, readable, limit + 1, enough, reader, position, after => by
      rw [List.all_cons, Bool.and_eq_true] at given readable
      obtain ⟨start, place, ran⟩ := run_tagAttributes_attribute reader position given.1 readable.1
        (limit + 1) (attributes.flatMap spellAttribute ++ after)
      obtain ⟨others, last, rest, values, plain, further⟩ := run_tagAttributes attributes given.2
        readable.2 (Nat.le_of_succ_le_succ enough)
        (reader.giving [⟨"", pair.1, (rereadGiven pair).2, start⟩]) place after
      refine ⟨⟨"", pair.1, (rereadGiven pair).2, start⟩ :: others, last, rest, ?_, ?_, ?_⟩
      · rw [List.map_cons, List.map_cons, values]
        rfl
      · exact List.forall_mem_cons.mpr ⟨rfl, plain⟩
      · rw [List.flatMap_cons, List.append_assoc, ran, further, Reader.giving, Reader.giving,
          List.append_assoc]
        rfl

/-- A tag with an attribute value that cannot be read is not read. -/
theorem run_tagAttributes_error : (attributes : List (String × String)) →
    attributes.all isGiven = true → attributes.all isReadableGiven = false → {limit : Nat} →
    attributes.length ≤ limit → (reader : Reader) → (position : Position) → (after : List Char) →
    ∃ fault, (tagAttributes entityDepth (limit + 1)).run
      (reader.seeing position (attributes.flatMap spellAttribute ++ after)) = .error fault
  | [], _, bad, _, _, _, _, _ => nomatch bad
  | pair :: attributes, given, bad, 0, enough, _, _, _ => nomatch enough
  | pair :: attributes, given, bad, limit + 1, enough, reader, position, after => by
      rw [List.all_cons, Bool.and_eq_true] at given
      rw [List.flatMap_cons, List.append_assoc]
      cases readable : isReadableGiven pair with
      | false => exact run_tagAttributes_attribute_error reader position given.1 readable _ _ _
      | true =>
          rw [List.all_cons, readable, Bool.true_and] at bad
          obtain ⟨start, place, ran⟩ := run_tagAttributes_attribute reader position given.1
            readable (limit + 1) (attributes.flatMap spellAttribute ++ after)
          rw [ran]
          exact run_tagAttributes_error attributes given.2 bad (Nat.le_of_succ_le_succ enough) _ _ _

end Attributes

/-! ## Ends of tags -/

/-- Attributes without qualifiers are distinct if their names are. -/
theorem distinctAttributes_ok (namespaces : List Declaration) : (given : List TagAttribute) →
    (earlier : List (Option String × String)) → (∀ next ∈ given, next.qualifier = "") →
    (given.map (·.name)).Nodup →
    (∀ next ∈ given, ∀ uri, (uri, next.name) ∉ earlier) →
      distinctAttributes namespaces earlier given =
        .ok (given.map TagAttribute.pair)
  | [], _, _, _, _ => rfl
  | next :: rest, earlier, plain, names, new => by
      obtain ⟨noQualifier, plainRest⟩ := List.forall_mem_cons.mp plain
      obtain ⟨newName, newRest⟩ := List.forall_mem_cons.mp new
      rw [List.map_cons, List.nodup_cons] at names
      have others := distinctAttributes_ok namespaces rest ((none, next.name) :: earlier) plainRest
        names.2 fun other listed uri known => by
          rcases List.mem_cons.mp known with same | before
          · exact names.1 ((Prod.mk.inj same).2 ▸ List.mem_map_of_mem listed)
          · exact newRest other listed uri before
      have unseen : earlier.contains (none, next.name) = false := by
        simpa using newName none
      rw [distinctAttributes, noQualifier, if_neg (by decide)]
      show (if earlier.contains (none, next.name) = true then _ else
        distinctAttributes namespaces ((none, next.name) :: earlier) rest >>= _) = _
      rw [unseen, if_neg Bool.false_ne_true, others]
      rfl

theorem run_takeAttributes {reader : Reader} (plain : ∀ next ∈ reader.attributes, next.qualifier = "")
    (names : (reader.attributes.map (·.name)).Nodup) :
    takeAttributes.run reader =
      .ok ((reader.attributes.map TagAttribute.pair, reader.namespaces), reader.taken) := by
  show (liftM (distinctAttributes reader.namespaces [] reader.attributes) >>= fun attributes =>
    set reader.taken >>= fun _ => (pure (attributes, reader.namespaces) :
      Reading (List (String × String) × List Declaration))).run reader = _
  rw [distinctAttributes_ok _ _ _ plain names fun _ _ _ => List.not_mem_nil]
  rfl

theorem Reader.flush_of_text (reader : Reader) (settled : reader.text = "") :
    reader.flush = reader := by
  obtain ⟨_⟩ := reader
  cases settled
  rfl

theorem Reader.push_seeing (reader : Reader) (child : Fragment) (position : Position)
    (text : List Char) :
    (reader.seeing position text).push child = (reader.push child).seeing position text := by
  unfold Reader.push Reader.seeing
  dsimp only
  split <;> rfl

theorem Reader.flush_seeing (reader : Reader) (position : Position) (text : List Char) :
    (reader.seeing position text).flush = reader.flush.seeing position text := by
  unfold Reader.flush
  show (if Text.allBlank reader.text = true then _ else _) = _
  split
  · rfl
  · rw [show (reader.seeing position text).text = reader.text from rfl, Reader.push_seeing]
    rfl

/-- The reader of an opening tag whose name has been read. -/
def Reader.tagged (name : String) (position : Position) (reader : Reader) : Reader :=
  { reader.flush with tag := some ⟨"", name, position⟩ }

theorem run_startTag (reader : Reader) (name : String) (start position : Position)
    (text : List Char) : (startTag "" name start).run (reader.seeing position text) =
      .ok ((), (reader.tagged name start).seeing position text) := by
  have finished := run_finishText (reader.seeing position text)
  rw [Reader.flush_seeing] at finished
  unfold startTag
  rw [run_bind finished]
  rfl

/-- The reader with another open element. -/
def Reader.opening (element : OpenElement) (reader : Reader) : Reader :=
  { reader with opened := element :: reader.opened }

section EndTag

variable (reader : Reader) (settled : reader.text = "") {name : String} {start : Position}
variable (tag : reader.tag = some ⟨"", name, start⟩)
variable (plain : ∀ next ∈ reader.attributes, next.qualifier = "")
variable (names : (reader.attributes.map (·.name)).Nodup)
include settled tag plain names

theorem run_endTag_empty : (endTag true).run reader =
    .ok ((), reader.taken.push (.element name (reader.attributes.map TagAttribute.pair) [])) := by
  have finished := run_finishText reader
  rw [reader.flush_of_text settled] at finished
  unfold endTag
  rw [run_bind finished, run_bind (run_takeAttributes plain names)]
  have seen : (get : Reading Reader).run reader.taken = .ok (reader.taken, reader.taken) := rfl
  have named : reader.taken.tag = some ⟨"", name, start⟩ := tag
  dsimp only
  rw [run_bind seen, named]
  rfl

theorem run_endTag_open : (endTag false).run reader = .ok ((), reader.taken.opening
    ⟨"", name, reader.attributes.map TagAttribute.pair, reader.namespaces, []⟩) := by
  have finished := run_finishText reader
  rw [reader.flush_of_text settled] at finished
  unfold endTag
  rw [run_bind finished, run_bind (run_takeAttributes plain names)]
  have seen : (get : Reading Reader).run reader.taken = .ok (reader.taken, reader.taken) := rfl
  have named : reader.taken.tag = some ⟨"", name, start⟩ := tag
  dsimp only
  rw [run_bind seen, named]
  rfl

end EndTag

/-! ## Opening tags -/

theorem Reader.text_flush (reader : Reader) : reader.flush.text = "" := by
  unfold Reader.flush
  split <;> rfl

/-- Whether no tag is being read. -/
structure Reader.Quiet (reader : Reader) : Prop where
  attributes : reader.attributes = []
  declarations : reader.declarations = []

theorem Reader.Quiet.push {reader : Reader} (quiet : reader.Quiet) (child : Fragment) :
    (reader.push child).Quiet := by
  unfold Reader.push
  split
  · exact ⟨quiet.attributes, quiet.declarations⟩
  · exact ⟨quiet.attributes, quiet.declarations⟩

theorem Reader.Quiet.flush {reader : Reader} (quiet : reader.Quiet) : reader.flush.Quiet := by
  unfold Reader.flush
  split
  · exact ⟨quiet.attributes, quiet.declarations⟩
  · exact ⟨(quiet.push _).attributes, (quiet.push _).declarations⟩

theorem Reader.Quiet.tagged {reader : Reader} (quiet : reader.Quiet) (name : String)
    (position : Position) : (reader.tagged name position).Quiet :=
  ⟨quiet.flush.attributes, quiet.flush.declarations⟩

/-- Taking the attributes of a tag leaves the reader as it was without them. -/
theorem Reader.Quiet.taken {reader : Reader} (quiet : reader.Quiet) (given : List TagAttribute)
    (position : Position) (text : List Char) :
    ((reader.giving given).seeing position text).taken = reader.seeing position text := by
  obtain ⟨noAttributes, noDeclarations⟩ := quiet
  obtain ⟨_⟩ := reader
  cases noAttributes
  cases noDeclarations
  rfl

theorem length_le_spelled (attributes : List (String × String)) :
    attributes.length ≤ (attributes.flatMap spellAttribute).length := by
  induction attributes with
  | nil => exact Nat.le_refl _
  | cons pair rest ih =>
      rw [List.flatMap_cons, List.length_append, List.length_cons, spellAttribute, List.length_cons]
      omega

/-- Without a tag there is nothing to take. -/
theorem Reader.Quiet.taken_self {reader : Reader} (quiet : reader.Quiet) (position : Position)
    (text : List Char) : (reader.seeing position text).taken = reader.seeing position text := by
  obtain ⟨noAttributes, noDeclarations⟩ := quiet
  obtain ⟨_⟩ := reader
  cases noAttributes
  cases noDeclarations
  rfl

section OpeningTag

variable {name : String} {attributes : List (String × String)}
variable (named : isLocalName name = true) (given : attributes.all isGiven = true)
variable (reader : Reader) (position : Position)
include named

/-- The name of an opening tag is read up to the attributes. -/
theorem run_openingTag_name {after : List Char} (ends : EndsTag after) :
    ∃ last limit, attributes.length ≤ limit ∧
      (openingTag entityDepth).run (reader.seeing position (spellTag name attributes ++ after)) =
        (tagAttributes entityDepth (limit + 1)).run ((reader.tagged name position).seeing last
          (attributes.flatMap spellAttribute ++ after)) := by
  obtain ⟨c, rest, same, stops, other⟩ : ∃ c rest, attributes.flatMap spellAttribute ++ after =
      c :: rest ∧ continuesName c = false ∧ c ≠ ':' := by
    obtain ⟨c, rest, rfl, sign⟩ := ends
    cases attributes with
    | nil => exact ⟨c, rest, rfl, by rcases sign with rfl | rfl <;> decide⟩
    | cons pair _ => exact ⟨' ', _, rfl, by decide⟩
  have enough : attributes.length ≤ (attributes.flatMap spellAttribute ++ after).length := by
    rw [List.length_append]
    exact Nat.le_add_right_of_le (length_le_spelled attributes)
  refine ⟨name.toList.foldl Position.advance (position.advance '<'), _, enough, ?_⟩
  have spelled : spellTag name attributes ++ after = '<' :: (name.toList ++ c :: rest) := by
    rw [spellTag, List.cons_append, List.append_assoc, same]
  unfold openingTag
  rw [spelled, run_bind (run_here reader _ _), run_bind (run_skip_one reader _ _ _),
    run_bind (run_qualifiedName reader _ named stops other rest)]
  dsimp only
  rw [run_bind (run_startTag reader name position _ _), run_bind (run_rest _ _ _), same]

include given

theorem run_openingTag_error (bad : attributes.all isReadableGiven = false) {after : List Char}
    (ends : EndsTag after) : ∃ fault, (openingTag entityDepth).run
      (reader.seeing position (spellTag name attributes ++ after)) = .error fault := by
  obtain ⟨last, limit, enough, ran⟩ := run_openingTag_name named reader position ends
  rw [ran]
  exact run_tagAttributes_error attributes given bad enough _ _ _

variable (readable : attributes.all isReadableGiven = true)
variable (names : (attributes.map (·.1)).Nodup)
include readable names

/-- An opening tag with readable attributes is read up to its end. -/
theorem run_openingTag {after : List Char} (ends : EndsTag after) :
    ∃ (taken : List TagAttribute) (last : Position) (limit : Nat),
      taken.map TagAttribute.pair = attributes.map rereadGiven ∧
      (∀ next ∈ taken, next.qualifier = "") ∧ (taken.map (·.name)).Nodup ∧
      (openingTag entityDepth).run (reader.seeing position (spellTag name attributes ++ after)) =
        (tagAttributes entityDepth (limit + 1)).run
          (((reader.tagged name position).giving taken).seeing last after) := by
  obtain ⟨place, limit, enough, opened⟩ := run_openingTag_name named reader position ends
  obtain ⟨taken, last, rest, values, plain, ran⟩ := run_tagAttributes attributes given readable
    enough (reader.tagged name position) place after
  refine ⟨taken, last, rest, values, plain, ?_, opened.trans ran⟩
  have same : taken.map (·.name) = attributes.map (·.1) := by
    have firsts := congrArg (List.map Prod.fst) values
    rwa [List.map_map, List.map_map] at firsts
  rwa [same]

variable (quiet : reader.Quiet)
include quiet

/-- The tag of an empty element is read again. -/
theorem run_openingTag_empty (after : List Char) :
    ∃ last, (openingTag entityDepth).run
        (reader.seeing position (spellTag name attributes ++ '/' :: '>' :: after)) =
      .ok (false, ((reader.tagged name position).push
        (.element name (attributes.map rereadGiven) [])).seeing last after) := by
  have ends : EndsTag ('/' :: '>' :: after) := ⟨_, _, rfl, .inl rfl⟩
  obtain ⟨taken, place, limit, values, plain, distinct, ran⟩ :=
    run_openingTag named given reader position readable names ends
  have quiet := quiet.tagged name position
  have noAttributes : ((reader.tagged name position).giving taken).attributes = taken := by
    rw [Reader.giving, quiet.attributes, List.nil_append]
  rw [← noAttributes] at plain distinct values
  have ended := run_endTag_empty (((reader.tagged name position).giving taken).seeing
    ((place.advance '/').advance '>') after) reader.text_flush rfl plain distinct
  refine ⟨(place.advance '/').advance '>', ?_⟩
  rw [ran]
  unfold tagAttributes
  rw [run_bind (run_rest _ _ _)]
  dsimp only
  rw [run_bind (run_skipSpaces_none _ _ (by rintro _ ⟨⟩; decide)), run_bind (run_here _ _ _),
    run_bind (run_current _ _ _ _), if_pos rfl, run_bind (run_skip_one _ _ _ _),
    run_bind (run_expect _ _ _ _), run_bind ended, quiet.taken, Reader.push_seeing, ← values]
  rfl

/-- The tag of an element with content is read again. -/
theorem run_openingTag_open (after : List Char) :
    ∃ last namespaces, (openingTag entityDepth).run
        (reader.seeing position (spellTag name attributes ++ '>' :: after)) =
      .ok (true, ((reader.tagged name position).opening
        ⟨"", name, attributes.map rereadGiven, namespaces, []⟩).seeing last after) := by
  have ends : EndsTag ('>' :: after) := ⟨_, _, rfl, .inr rfl⟩
  obtain ⟨taken, place, limit, values, plain, distinct, ran⟩ :=
    run_openingTag named given reader position readable names ends
  have quiet := quiet.tagged name position
  have noAttributes : ((reader.tagged name position).giving taken).attributes = taken := by
    rw [Reader.giving, quiet.attributes, List.nil_append]
  rw [← noAttributes] at plain distinct values
  have ended := run_endTag_open (((reader.tagged name position).giving taken).seeing
    (place.advance '>') after) reader.text_flush rfl plain distinct
  refine ⟨place.advance '>', (((reader.tagged name position).giving taken).seeing
    (place.advance '>') after).namespaces, ?_⟩
  rw [ran]
  unfold tagAttributes
  rw [run_bind (run_rest _ _ _)]
  dsimp only
  rw [run_bind (run_skipSpaces_none _ _ (by rintro _ ⟨⟩; decide)), run_bind (run_here _ _ _),
    run_bind (run_current _ _ _ _), if_neg (by decide), if_pos rfl,
    run_bind (run_skip_one _ _ _ _), run_bind ended, quiet.taken, ← values]
  rfl

end OpeningTag

/-! ## Closing tags -/

section ClosingTag

variable {reader : Reader} (quiet : reader.Quiet) (tag : reader.tag.isSome = true)
variable {name : String} {attributes : List (String × String)} {namespaces : List Declaration}
variable {children : List Fragment} {outer : List OpenElement}
variable (opened : reader.flush.opened = ⟨"", name, attributes, namespaces, children⟩ :: outer)
variable (position : Position)
include quiet tag opened

/-- The innermost open element is closed by its name. -/
theorem run_closeElement (start : Position) (text : List Char) :
    (closeElement "" name start).run (reader.seeing position text) =
      .ok ((), ({ reader.flush with opened := outer }.push
        (.element name attributes children.reverse)).seeing position text) := by
  have finished := run_finishText (reader.seeing position text)
  rw [Reader.flush_seeing] at finished
  have quiet := quiet.flush
  have seen : (get : Reading Reader).run (reader.flush.seeing position text) =
    .ok (reader.flush.seeing position text, reader.flush.seeing position text) := rfl
  have tagged : (reader.flush.seeing position text).tag.isNone = false := by
    obtain ⟨given, found⟩ := Option.isSome_iff_exists.mp tag
    show reader.flush.tag.isNone = false
    rw [reader.tag_flush, found]
    rfl
  have noAttributes : (reader.flush.seeing position text).attributes = [] := quiet.attributes
  have taken := run_takeAttributes (noAttributes ▸ List.forall_mem_nil _)
    (noAttributes ▸ List.nodup_nil)
  rw [quiet.taken_self] at taken
  have inside : (reader.flush.seeing position text).opened =
    ⟨"", name, attributes, namespaces, children⟩ :: outer := opened
  unfold closeElement
  rw [run_bind finished, run_bind seen, tagged, if_neg Bool.false_ne_true]
  dsimp only
  rw [run_bind taken, run_bind seen, inside]
  dsimp only
  rw [if_neg (by simp)]
  exact congrArg (fun next => Except.ok ((), next))
    (Reader.push_seeing { reader.flush with opened := outer } _ position text)

/-- The tag that closes the innermost open element is read again. -/
theorem run_closingTag (named : isLocalName name = true) (after : List Char) :
    ∃ last, closingTag.run (reader.seeing position ('<' :: '/' :: (name.toList ++ '>' :: after))) =
      .ok ((), ({ reader.flush with opened := outer }.push
        (.element name attributes children.reverse)).seeing last after) := by
  refine ⟨(name.toList.foldl Position.advance
    ((position.advance '<').advance '/')).advance '>', ?_⟩
  have skipped : (skip 2).run (reader.seeing position
      ('<' :: '/' :: (name.toList ++ '>' :: after))) = .ok ((), reader.seeing
        ((position.advance '<').advance '/') (name.toList ++ '>' :: after)) :=
    run_skip reader position ['<', '/'] _
  unfold closingTag
  rw [run_bind (run_here _ _ _), run_bind skipped,
    run_bind (run_qualifiedName _ _ named (by decide) (by decide) _)]
  dsimp only
  rw [run_bind (run_skipSpaces_none _ _ (by rintro _ ⟨⟩; decide)), run_bind (run_expect _ _ _ _),
    run_closeElement quiet tag opened]

end ClosingTag

end TreeQuery.Markup
