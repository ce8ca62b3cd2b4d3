import TreeQuery.Proofs.Markup.Contracts

/-!
# What is read

The document that a reader builds has local names only, and texts of characters that a document
may hold, none of them blank; its first part is an element (`Reader.Sound`).  Every step of reading
keeps this, so it holds of the fragments that a text is read as (`parse_sound`).
-/

set_option autoImplicit false

namespace TreeQuery

open Markup

/-! ## Sound fragments -/

/-- Whether a pair is an attribute with a local name that is no declaration of a namespace. -/
def Markup.isGiven (pair : String × String) : Bool :=
  isLocalName pair.1 && pair.1 ≠ "xmlns"

/-- Whether a text is one that can be read: of characters that a document may hold, and not
blank. -/
def Markup.isContent (text : String) : Bool :=
  text.toList.all isDocumentChar && !Text.allBlank text

/-- A fragment as it is read. -/
inductive Fragment.Sound : Fragment → Prop where
  | text {value : String} (content : isContent value = true) : Sound (.text value)
  | element {name : String} {attributes : List (String × String)} {children : List Fragment}
      (named : isLocalName name = true) (given : ∀ pair ∈ attributes, isGiven pair = true)
      (inside : ∀ child ∈ children, child.Sound) : Sound (.element name attributes children)

namespace Markup

open Text (Position)

/-- An open element as it is read. -/
structure OpenElement.Sound (element : OpenElement) : Prop where
  named : isLocalName element.name = true
  given : ∀ pair ∈ element.attributes, isGiven pair = true
  inside : ∀ child ∈ element.children, child.Sound

/-- An attribute of a tag as the element has it. -/
def TagAttribute.pair (given : TagAttribute) : String × String := (given.name, given.value)

/-- The document that is being built, as far as it has been read; there can be a claim that it has
begun, and it has if there is a text. -/
structure Reader.Sound (begun : Prop) (reader : Reader) : Prop where
  opened : ∀ element ∈ reader.opened, element.Sound
  finished : ∀ fragment ∈ reader.finished, fragment.Sound
  first : ∀ fragment ∈ reader.finished.getLast?, fragment.isElement = true
  text : reader.text.toList.all isDocumentChar = true
  tag : ∀ tag ∈ reader.tag, isLocalName tag.name = true
  attributes : ∀ given ∈ reader.attributes, isGiven given.pair = true
  started : begun ∨ reader.text ≠ "" → reader.opened ≠ [] ∨ reader.finished ≠ []

namespace Reader

variable {begun : Prop} {reader : Reader}

theorem Sound.blind : Blind (Sound begun) :=
  fun _ _ _ _ sound => { sound with }

theorem Sound.start (text : String) : (start text).Sound False where
  opened := List.forall_mem_nil _
  finished := List.forall_mem_nil _
  first := nofun
  text := rfl
  tag := nofun
  attributes := List.forall_mem_nil _
  started := by
    rintro (claim | filled)
    · exact claim.elim
    · exact absurd rfl filled

/-- With an open element a document has begun. -/
theorem Sound.begins (sound : reader.Sound begun) (opened : reader.opened ≠ []) :
    reader.Sound True :=
  { sound with started := fun _ => .inl opened }

theorem Sound.forget (sound : reader.Sound begun) : reader.Sound False :=
  { sound with started := fun filled => sound.started (.inr (filled.resolve_left id)) }

/-! ## Children -/

/-- The reader with a finished child added to the innermost open element. -/
def push (child : Fragment) (reader : Reader) : Reader :=
  match reader.opened with
  | [] => { reader with finished := child :: reader.finished }
  | element :: outer =>
      { reader with opened := { element with children := child :: element.children } :: outer }

/-- The reader with its text finished; a blank text is dropped. -/
def flush (reader : Reader) : Reader :=
  if Text.allBlank reader.text then { reader with text := "" }
  else { reader.push (.text reader.text) with text := "" }

/-- A child can be added if it is an element or something is there already. -/
theorem Sound.push (sound : reader.Sound begun) {child : Fragment} (good : child.Sound)
    (starts : child.isElement = true ∨ reader.opened ≠ [] ∨ reader.finished ≠ [])
    (claim : Prop) : (reader.push child).Sound claim := by
  unfold Reader.push
  split
  · rename_i outside
    refine { sound with finished := ?_, first := ?_, started := ?_ }
    · exact List.forall_mem_cons.mpr ⟨good, sound.finished⟩
    · intro fragment last
      cases finished : reader.finished with
      | nil =>
          rw [finished] at last
          obtain rfl := Option.some.inj last
          rcases starts with element | opened | begins
          · exact element
          · exact absurd outside opened
          · exact absurd finished begins
      | cons next rest =>
          rw [finished, List.getLast?_cons_cons, ← finished] at last
          exact sound.first fragment last
    · exact fun _ => .inr (List.cons_ne_nil _ _)
  · rename_i element outer inside
    have opened := sound.opened
    rw [inside] at opened
    obtain ⟨inner, others⟩ := List.forall_mem_cons.mp opened
    refine { sound with opened := ?_, started := ?_ }
    · refine List.forall_mem_cons.mpr ⟨⟨inner.named, inner.given, ?_⟩, others⟩
      exact List.forall_mem_cons.mpr ⟨good, inner.inside⟩
    · exact fun _ => .inl (List.cons_ne_nil _ _)

theorem Sound.flush (sound : reader.Sound begun) :
    reader.flush.Sound begun ∧ reader.flush.text = "" := by
  have dropped : ∀ {reader : Reader}, reader.Sound begun →
      { reader with text := "" }.Sound begun := by
    intro reader sound
    refine { sound with text := rfl, started := ?_ }
    rintro (claim | filled)
    · exact sound.started (.inl claim)
    · exact absurd rfl filled
  unfold Reader.flush
  cases blank : Text.allBlank reader.text with
  | true => exact ⟨dropped sound, rfl⟩
  | false =>
      have good : (Fragment.text reader.text).Sound := by
        refine .text ?_
        rw [isContent, sound.text, blank]
        rfl
      have filled : reader.text ≠ "" := by
        intro empty
        rw [empty] at blank
        cases blank
      exact ⟨dropped (sound.push good (.inr (sound.started (.inr filled))) begun), rfl⟩

end Reader

theorem run_finishText (reader : Reader) : finishText.run reader = .ok ((), reader.flush) := by
  unfold finishText Reader.flush
  show StateT.run (if Text.allBlank reader.text = true then _ else _) reader = _
  split <;> rfl

section Building

variable {begun : Prop}

theorem keeps_finishText : Keeps (Reader.Sound begun) finishText fun _ => True := by
  intro reader value next sound ran
  rw [run_finishText] at ran
  cases ran
  exact ⟨sound.flush.1, trivial⟩

/-- Once something is there, text can be added. -/
theorem keeps_addText {text : List Char} (content : text.all isDocumentChar = true) :
    Keeps (Reader.Sound True) (addText text) fun _ => True := by
  refine Keeps.modify fun reader sound => { sound with text := ?_, started := ?_ }
  · rw [String.toList_append, String.toList_ofList, List.all_append, sound.text, content]
    rfl
  · exact fun _ => sound.started (.inl trivial)

/-! ## Tags -/

theorem bind_eq_ok {α β : Type} {result : Except Fault α} {further : α → Except Fault β}
    {value : β} (succeeds : (result >>= further) = .ok value) :
    ∃ middle, result = .ok middle ∧ further middle = .ok value := by
  cases result with
  | error fault => cases succeeds
  | ok middle => exact ⟨middle, rfl, succeeds⟩

/-- The attributes of a tag that are distinct are given as they stand in the tag. -/
theorem distinctAttributes_eq_ok {namespaces : List Declaration} : {given : List TagAttribute} →
    {earlier : List (Option String × String)} → {pairs : List (String × String)} →
      distinctAttributes namespaces earlier given = .ok pairs →
        pairs = given.map TagAttribute.pair
  | [], _, _, distinct => by
      cases distinct
      rfl
  | next :: rest, earlier, pairs, distinct => by
      rw [distinctAttributes] at distinct
      split at distinct
      all_goals
        obtain ⟨uri, _, distinct⟩ := bind_eq_ok distinct
        dsimp only at distinct
        split at distinct
        · obtain ⟨_, stopped, _⟩ := bind_eq_ok distinct
          cases stopped
        · obtain ⟨others, found, distinct⟩ := bind_eq_ok distinct
          cases distinct
          rw [distinctAttributes_eq_ok found, List.map_cons, TagAttribute.pair]

/-- The reader after the attributes of a tag have been taken. -/
def Reader.taken (reader : Reader) : Reader := { reader with attributes := [], declarations := [] }

theorem keeps_takeAttributes {property : Reader → Prop}
    (sound : ∀ reader, property reader → reader.Sound begun)
    (taken : ∀ reader, property reader → property reader.taken) :
    Keeps property takeAttributes fun taken => ∀ pair ∈ taken.1, isGiven pair = true := by
  unfold takeAttributes
  refine .get_bind (fun reader holds => ?_) fun _ => id
  refine (Keeps.lift _).bind fun pairs found => ?_
  refine Ensures.bind (.set (taken reader holds)) fun _ => .value ?_
  rw [distinctAttributes_eq_ok found]
  exact List.forall_mem_map.mpr (sound reader holds).attributes

theorem Reader.Sound.taken {reader : Reader} (sound : reader.Sound begun) :
    reader.taken.Sound begun :=
  { sound with attributes := List.forall_mem_nil _ }

/-- The readers of a tag: something sound is being built, and the tag has a name. -/
def Reader.Tagged (begun : Prop) (reader : Reader) : Prop :=
  reader.Sound begun ∧ reader.tag.isSome = true

theorem Reader.Tagged.blind : Blind (Reader.Tagged begun) :=
  fun reader cursor entities references tagged =>
    ⟨Reader.Sound.blind reader cursor entities references tagged.1, tagged.2⟩

theorem ensures_startTag {name : String} (named : isLocalName name = true) (qualifier : String)
    (position : Position) : Ensures (Reader.Sound begun) (startTag qualifier name position)
      fun _ => Reader.Tagged begun := by
  unfold startTag
  refine keeps_finishText.bind fun _ _ => .refuse (.stopAt _ _) fun _ => ?_
  refine .modify fun reader sound => ⟨{ sound with tag := ?_ }, rfl⟩
  rintro _ ⟨⟩
  exact named

theorem keeps_giveAttribute {given : TagAttribute} (named : isLocalName given.name = true) :
    Keeps (Reader.Tagged begun) (giveAttribute given) fun _ => True := by
  have declares : ∀ name uri, Keeps (Reader.Tagged begun) (declareNamespace name uri)
      fun _ => True := by
    intro name uri
    exact Keeps.modify fun reader tagged => ⟨{ tagged.1 with }, tagged.2⟩
  unfold giveAttribute
  refine .ite (fun _ => ?_) fun _ => .ite (fun _ => ?_) fun other => ?_
  · refine .refuse (.stopAt _ _) fun _ => .ite (fun _ => .refuse (.stopAt _ _) fun _ => ?_)
      fun _ => .refuse (.stopAt _ _) fun _ => ?_
    all_goals
      refine Keeps.get.bind fun reader _ => .refuse (.stopAt _ _) fun _ => ?_
      exact .ite (fun _ => declares _ _) fun _ => .value trivial
  · exact .refuse (.stopAt _ _) fun _ => .refuse (.stopAt _ _) fun _ => declares _ _
  · refine Keeps.modify fun reader tagged => ⟨{ tagged.1 with attributes := ?_ }, tagged.2⟩
    refine List.forall_mem_append.mpr ⟨tagged.1.attributes, List.forall_mem_singleton.mpr ?_⟩
    rw [isGiven, TagAttribute.pair, named, Bool.true_and]
    exact decide_eq_true other

theorem Reader.tag_push (child : Fragment) (reader : Reader) :
    (reader.push child).tag = reader.tag := by
  unfold Reader.push
  split <;> rfl

theorem Reader.tag_flush (reader : Reader) : reader.flush.tag = reader.tag := by
  unfold Reader.flush
  split
  · rfl
  · exact reader.tag_push _

/-- An element that is left open is there afterwards. -/
theorem ensures_endTag (isEmpty : Bool) : Ensures (Reader.Tagged begun) (endTag isEmpty)
    fun _ reader => reader.Sound begun ∧ (isEmpty = false → reader.opened ≠ []) := by
  have finished : Keeps (Reader.Tagged begun) finishText fun _ => True := by
    intro reader value next tagged ran
    rw [run_finishText] at ran
    cases ran
    exact ⟨⟨tagged.1.flush.1, by rw [reader.tag_flush]; exact tagged.2⟩, trivial⟩
  have taken : Keeps (Reader.Tagged begun) takeAttributes fun taken =>
      ∀ pair ∈ taken.1, isGiven pair = true :=
    keeps_takeAttributes (fun _ tagged => tagged.1) fun _ tagged => ⟨tagged.1.taken, tagged.2⟩
  unfold endTag
  refine finished.bind fun _ _ => taken.bind fun taken given => ?_
  refine .get_bind (fun reader tagged => ?_) fun _ tagged => tagged
  cases found : reader.tag with
  | none =>
      have some := tagged.2
      rw [found] at some
      cases some
  | some tag =>
      have named := tagged.1.tag tag found
      refine (Keeps.lift _).bind fun _ _ => .ite (fun empty => ?_) fun open_ => ?_
      · rintro reader _ _ tagged ⟨⟩
        have good : (Fragment.element tag.name taken.1 []).Sound :=
          .element named given (List.forall_mem_nil _)
        refine ⟨tagged.1.push good (.inl rfl) begun, fun left => ?_⟩
        rw [empty] at left
        cases left
      · refine .modify fun reader tagged => ⟨{ tagged.1 with opened := ?_, started := ?_ }, ?_⟩
        · exact List.forall_mem_cons.mpr ⟨⟨named, given, List.forall_mem_nil _⟩, tagged.1.opened⟩
        · exact fun _ => .inl (List.cons_ne_nil _ _)
        · exact fun _ => List.cons_ne_nil _ _

theorem keeps_closeElement (qualifier name : String) (position : Position) :
    Keeps (Reader.Sound begun) (closeElement qualifier name position) fun _ => True := by
  have finished : Ensures (Reader.Sound begun) finishText fun _ reader =>
      reader.Sound begun ∧ reader.text = "" := by
    intro reader value next sound ran
    rw [run_finishText] at ran
    cases ran
    exact sound.flush
  unfold closeElement
  refine finished.bind fun _ => Keeps.get.bind fun _ _ => .refuse (.stopAt _ _) fun _ => ?_
  have taken : Keeps (fun reader => reader.Sound begun ∧ reader.text = "") takeAttributes
      fun taken => ∀ pair ∈ taken.1, isGiven pair = true :=
    keeps_takeAttributes (fun _ holds => holds.1) fun _ holds => ⟨holds.1.taken, holds.2⟩
  refine taken.bind fun _ _ => .get_bind (fun reader holds => ?_) fun reader _ => Eq.refl reader
  cases inside : reader.opened with
  | nil => exact .stopAt _ _
  | cons element outer =>
      refine .refuse (.stopAt _ _) fun _ => ?_
      have opened := holds.1.opened
      rw [inside] at opened
      obtain ⟨inner, others⟩ := List.forall_mem_cons.mp opened
      -- Between the two steps there can be nothing yet, but then there is no text either.
      have between : { reader with opened := outer }.Sound False := by
        refine { holds.1 with opened := others, started := ?_ }
        rintro (claim | filled)
        · exact claim.elim
        · exact absurd holds.2 filled
      have good : (Fragment.element element.name element.attributes
          element.children.reverse).Sound :=
        .element inner.named inner.given fun child listed =>
          inner.inside child (List.mem_reverse.mp listed)
      rintro other _ _ rfl ⟨⟩
      exact ⟨between.push good (.inl rfl) begun, trivial⟩

theorem ensures_tagAttributes (levels limit : Nat) :
    Ensures (Reader.Tagged begun) (tagAttributes levels limit) fun isOpen reader =>
      reader.Sound begun ∧ (isOpen = true → reader.opened ≠ []) := by
  have blind : Blind (Reader.Tagged begun) := Reader.Tagged.blind
  induction limit with
  | zero => exact .pure fun reader tagged => ⟨tagged.1, nofun⟩
  | succ limit ih =>
      unfold tagAttributes
      refine keeps_rest.bind fun following _ => ?_
      cases following with
      | nil => exact .pure fun reader tagged => ⟨tagged.1, nofun⟩
      | cons first _ =>
          refine (keeps_skipSpaces blind.forward).bind fun _ _ => keeps_here.bind fun start _ => ?_
          refine keeps_current.bind fun c _ => ?_
          refine .ite (fun _ => ?_) fun _ => .ite (fun _ => ?_) fun _ => ?_
          · refine (keeps_skip blind.forward 1).bind fun _ _ => ?_
            refine (keeps_expect blind.forward _).bind fun _ _ => ?_
            exact (ensures_endTag true).bind fun _ => .pure fun reader ended => ⟨ended.1, nofun⟩
          · refine (keeps_skip blind.forward 1).bind fun _ _ => ?_
            refine (ensures_endTag false).bind fun _ => .pure fun reader ended => ?_
            exact ⟨ended.1, fun _ => ended.2 rfl⟩
          · refine .require (.stop _) fun _ => ?_
            refine (keeps_qualifiedName blind.forward).bind fun read named => ?_
            refine (keeps_equals blind.forward).bind fun _ _ => ?_
            refine (keeps_quotedValue blind).bind fun written _ => ?_
            have valued : Keeps (Reader.Tagged begun) (elsewhere written (attributeValue levels))
                fun _ => True :=
              .anywhere (keeps_elsewhere blind (fun reader =>
                blind reader written reader.entities reader.references)
                  (keeps_attributeValue blind levels))
            refine valued.bind fun value _ => ?_
            exact (keeps_giveAttribute named).bind fun _ _ => ih

theorem ensures_openingTag (levels : Nat) :
    Ensures (Reader.Sound begun) (openingTag levels) fun isOpen reader =>
      reader.Sound begun ∧ (isOpen = true → reader.opened ≠ []) := by
  have blind : Blind (Reader.Sound begun) := Reader.Sound.blind
  unfold openingTag
  refine keeps_here.bind fun start _ => (keeps_skip blind.forward 1).bind fun _ _ => ?_
  refine (keeps_qualifiedName blind.forward).bind fun read named => ?_
  refine (ensures_startTag named _ _).bind fun _ => ?_
  exact keeps_rest.bind fun _ _ => ensures_tagAttributes levels _

theorem keeps_closingTag : Keeps (Reader.Sound begun) closingTag fun _ => True := by
  have blind : Blind (Reader.Sound begun) := Reader.Sound.blind
  unfold closingTag
  refine keeps_here.bind fun start _ => (keeps_skip blind.forward 2).bind fun _ _ => ?_
  refine (keeps_qualifiedName blind.forward).bind fun read named => ?_
  refine (keeps_skipSpaces blind.forward).bind fun _ _ => ?_
  exact (keeps_expect blind.forward _).bind fun _ _ => keeps_closeElement _ _ _

/-! ## Text -/

/-- Readers at characters that a document may hold, in a document that has begun. -/
def Reader.InText (reader : Reader) : Prop :=
  reader.Sound True ∧ reader.cursor.rest.all isDocumentChar = true

theorem Reader.InText.forward : Forward Reader.InText := by
  intro reader count inText
  refine ⟨Reader.Sound.blind reader _ reader.entities reader.references inText.1, ?_⟩
  rw [List.all_eq_true]
  exact fun c listed => List.all_eq_true.mp inText.2 c (List.mem_of_mem_drop listed)

theorem keeps_restInText : Keeps Reader.InText rest fun following =>
    following.all isDocumentChar = true := by
  rintro reader _ _ inText ⟨⟩
  exact ⟨inText, inText.2⟩

theorem all_pushLine {before : List Char} {c : Char} {last : Bool}
    (allowed : before.all isDocumentChar = true) (next : isDocumentChar c = true) :
    (pushLine before c last).all isDocumentChar = true := by
  have lineFeed : isDocumentChar '\n' = true := by decide
  unfold pushLine
  split
  · rw [List.all_cons, Bool.and_eq_true] at allowed
    split
    · simp [lineFeed, allowed.2]
    · split
      · simp [lineFeed, allowed.2]
      · simp [lineFeed, next, allowed.2]
  · split
    · simp [lineFeed, allowed]
    · simp [next, allowed]

theorem all_normalizeLines {before text : List Char} (allowed : before.all isDocumentChar = true)
    (rest : text.all isDocumentChar = true) :
    (normalizeLines before text).all isDocumentChar = true := by
  induction text generalizing before with
  | nil =>
      rw [normalizeLines, List.all_reverse]
      exact allowed
  | cons c rest ih =>
      rw [List.all_cons, Bool.and_eq_true] at rest
      rw [normalizeLines]
      exact ih (all_pushLine allowed rest.1) rest.2

theorem keeps_textChars {expand : Cursor → Reading Unit}
    (expands : ∀ value, Keeps Reader.InText (expand value) fun _ => True) (levels limit : Nat) :
    ∀ (before : List Char) (asIs : Bool), before.all isDocumentChar = true →
      Keeps Reader.InText (textChars levels expand limit before asIs) fun _ => True := by
  have added : ∀ {before : List Char}, before.all isDocumentChar = true →
      Keeps Reader.InText (addText before.reverse) fun _ => True := by
    intro before allowed reader value next inText ran
    rw [← List.all_reverse] at allowed
    cases ran
    exact ⟨⟨(keeps_addText allowed reader _ _ inText.1 rfl).1, inText.2⟩, trivial⟩
  have forward := Reader.InText.forward
  induction limit with
  | zero => exact fun before _ allowed => added allowed
  | succ limit ih =>
      intro before asIs allowed
      unfold textChars
      refine Keeps.bind keeps_restInText fun following inside => ?_
      split
      · exact added allowed
      · refine (keeps_reference forward).bind fun found known => ?_
        cases found with
        | inl c =>
            refine .ite (fun _ => ?_) fun _ => ?_
            · exact keeps_rest.bind fun _ _ => ih _ _ (all_pushLine allowed (known c rfl))
            · refine ih _ _ ?_
              rw [List.all_cons, known c rfl, allowed]
              rfl
        | inr value =>
            refine (added allowed).bind fun _ _ => (expands value).bind fun _ _ => ?_
            exact ih [] false rfl
      · rename_i c following _
        rw [List.all_cons, Bool.and_eq_true] at inside
        refine (keeps_skip forward 1).bind fun _ _ => ih _ _ ?_
        split
        · rw [List.all_cons, inside.1, allowed]
          rfl
        · exact all_pushLine allowed inside.1

theorem keeps_text {expand : Cursor → Reading Unit}
    (expands : ∀ value, Keeps Reader.InText (expand value) fun _ => True) (levels : Nat) :
    Keeps (Reader.Sound True) (text levels expand) fun _ => True := by
  have blind : Blind (Reader.Sound True) := Reader.Sound.blind
  unfold text
  refine (keeps_runWhile blind _).bind fun content allowed => .refuse (.stop _) fun _ => ?_
  have enters : ∀ reader : Reader, reader.Sound True →
      Reader.InText { reader with cursor := content } :=
    fun reader sound => ⟨blind reader content reader.entities reader.references sound, allowed⟩
  have read : Ensures Reader.InText (textChars levels expand (content.rest.length + 1) [] false)
      fun _ reader => reader.Sound True ∧ True :=
    Ensures.weaken (keeps_textChars expands levels _ [] false rfl) (fun _ => id)
      fun _ _ read => ⟨read.1.1, trivial⟩
  exact Keeps.anywhere (keeps_elsewhere blind enters read)

theorem keeps_characterSection :
    Keeps (Reader.Sound True) characterSection fun _ => True := by
  have blind : Blind (Reader.Sound True) := Reader.Sound.blind
  unfold characterSection
  refine (keeps_skip blind.forward _).bind fun _ _ => ?_
  refine (keeps_runUpTo blind _).bind fun content allowed => ?_
  refine (keeps_expectText blind.forward _).bind fun _ _ => ?_
  exact keeps_addText (all_normalizeLines rfl allowed)

theorem keeps_comment : Keeps (Reader.Sound begun) comment fun _ => True := by
  have blind : Blind (Reader.Sound begun) := Reader.Sound.blind
  unfold comment
  refine keeps_here.bind fun start _ => (keeps_skip blind.forward _).bind fun _ _ => ?_
  refine (keeps_runUpTo blind _).bind fun content _ => ?_
  refine (keeps_expectText blind.forward _).bind fun _ _ => ?_
  exact .refuse (.stopAt _ _) fun _ => keeps_finishText

theorem keeps_processingInstruction :
    Keeps (Reader.Sound begun) processingInstruction fun _ => True := by
  have blind : Blind (Reader.Sound begun) := Reader.Sound.blind
  unfold processingInstruction
  refine (keeps_comesNext _).bind fun _ _ => .refuse (.stop _) fun _ => ?_
  refine (keeps_skip blind.forward _).bind fun _ _ => ?_
  refine (keeps_name blind.forward).bind fun _ _ => ?_
  refine (keeps_skipSpaces blind.forward).bind fun _ _ => ?_
  refine (keeps_runUpTo blind _).bind fun _ _ => ?_
  exact (keeps_expectText blind.forward _).bind fun _ _ => keeps_finishText

/-! ## Content -/

theorem keeps_contentItems {expand : Cursor → Reading Unit}
    (expands : ∀ value, Keeps Reader.InText (expand value) fun _ => True) (levels limit : Nat) :
    ∀ depth, Keeps (Reader.Sound True) (contentItems levels expand limit depth) fun _ => True := by
  induction limit with
  | zero => exact fun _ => .value trivial
  | succ limit ih =>
      intro depth
      unfold contentItems
      refine keeps_rest.bind fun following _ => ?_
      split
      · exact .value trivial
      · refine (keeps_comesNext _).bind fun _ _ => .ite (fun _ => ?_) fun _ => ?_
        · exact keeps_comment.bind fun _ _ => ih depth
        · refine (keeps_comesNext _).bind fun _ _ => .ite (fun _ => ?_) fun _ => ?_
          · exact keeps_characterSection.bind fun _ _ => ih depth
          · have stops : Keeps (Reader.Sound True) (stop .unknownToken : Reading Unit)
                fun _ => True := .stop _
            exact stops.bind fun _ _ => ih depth
      · exact keeps_processingInstruction.bind fun _ _ => ih depth
      · refine keeps_closingTag.bind fun _ _ => ?_
        cases depth with
        | zero => exact .value trivial
        | succ depth => exact ih depth
      · exact .stop _
      · have opens : Keeps (Reader.Sound True) (openingTag levels) fun _ => True :=
          Ensures.weaken (ensures_openingTag levels) (fun _ => id) fun _ _ opened =>
            ⟨opened.1, trivial⟩
        exact opens.bind fun _ _ => ih _
      · exact (keeps_text expands levels).bind fun _ _ => ih depth

theorem keeps_entityContent {content : Reading Unit}
    (keeps : Keeps (Reader.Sound True) content fun _ => True) :
    Keeps (Reader.Sound True) (entityContent content) fun _ => True := by
  unfold entityContent
  refine .get_bind (fun reader sound => ?_) fun _ => id
  have named := sound.tag
  refine (Keeps.modify fun other sound => { sound with tag := nofun }).bind fun _ _ => ?_
  refine keeps.bind fun _ _ => ?_
  exact Keeps.modify fun other sound => { sound with tag := named }

theorem keeps_content (levels : Nat) :
    Keeps (Reader.Sound True) (content levels) fun _ => True := by
  have blind : Blind (Reader.Sound True) := Reader.Sound.blind
  have expands : ∀ {levels : Nat} {nested : Option (Reading Unit)},
      (∀ reading ∈ nested, Keeps (Reader.Sound True) reading fun _ => True) →
        ∀ value, Keeps Reader.InText (enterEntity levels nested value) fun _ => True :=
    fun keeps value => keeps_enterEntity blind keeps _ value fun cursor =>
      cursor.rest.all isDocumentChar = true
  induction levels with
  | zero =>
      have nothing : ∀ reading ∈ (none : Option (Reading Unit)),
          Keeps (Reader.Sound True) reading fun _ => True := by
        rintro _ ⟨⟩
      exact keeps_rest.bind fun _ _ => keeps_contentItems (expands nothing) 0 _ 0
  | succ levels ih =>
      have nested : ∀ reading ∈ some (entityContent (content levels)),
          Keeps (Reader.Sound True) reading fun _ => True := by
        rintro _ ⟨⟩
        exact keeps_entityContent ih
      exact keeps_rest.bind fun _ _ => keeps_contentItems (expands nested) _ _ 0

/-! ## Whole documents -/

theorem keeps_declarations (start : Position) (limit : Nat) :
    Keeps (Reader.Sound begun) (declarations start limit) fun _ => True := by
  have blind : Blind (Reader.Sound begun) := Reader.Sound.blind
  have forward := blind.forward
  induction limit with
  | zero => exact .value trivial
  | succ limit ih =>
      unfold declarations
      refine keeps_rest.bind fun following _ => .ite (fun _ => .value trivial) fun _ => ?_
      refine (keeps_skipSpaces forward).bind fun _ _ => ?_
      refine (keeps_comesNext _).bind fun _ _ => .ite (fun _ => ?_) fun _ => ?_
      · exact (keeps_entityDeclaration blind).bind fun _ _ => ih
      refine (keeps_comesNext _).bind fun _ _ => .ite (fun _ => ?_) fun _ => ?_
      · exact keeps_comment.bind fun _ _ => ih
      refine (keeps_comesNext _).bind fun _ _ => .ite (fun _ => ?_) fun _ => ?_
      · exact keeps_processingInstruction.bind fun _ _ => ih
      refine (keeps_comesNext _).bind fun _ _ => .ite (fun _ => ?_) fun _ => ?_
      · refine (keeps_skip forward 1).bind fun _ _ => (keeps_skipSpaces forward).bind fun _ _ => ?_
        exact keeps_current.bind fun _ _ => .ite (fun _ => keeps_skip forward 1) fun _ => .stop _
      refine (keeps_comesNext _).bind fun _ _ => (keeps_comesNext _).bind fun _ _ => ?_
      refine (keeps_comesNext _).bind fun _ _ => .ite (fun _ => ?_) fun _ => .stop _
      exact (keeps_otherDeclaration forward start).bind fun _ _ => ih

theorem keeps_documentType : Keeps (Reader.Sound begun) documentType fun _ => True := by
  have blind : Blind (Reader.Sound begun) := Reader.Sound.blind
  have forward := blind.forward
  unfold documentType
  refine keeps_here.bind fun start _ => (keeps_skip forward _).bind fun _ _ => ?_
  refine (keeps_spaces forward).bind fun _ _ => (keeps_nameOrEnd forward).bind fun _ _ => ?_
  refine (keeps_skipSpaces forward).bind fun _ _ => (keeps_externalId forward).bind fun _ _ => ?_
  refine (keeps_skipSpaces forward).bind fun _ _ => keeps_current.bind fun found _ => ?_
  refine .refuse (.stop _) fun _ => (keeps_skip forward 1).bind fun _ _ => ?_
  refine .ite (fun _ => ?_) fun _ => .value trivial
  exact keeps_rest.bind fun _ _ => keeps_declarations start _

theorem keeps_miscellaneous (limit : Nat) :
    Keeps (Reader.Sound begun) (miscellaneous limit) fun _ => True := by
  have blind : Blind (Reader.Sound begun) := Reader.Sound.blind
  induction limit with
  | zero => exact .value trivial
  | succ limit ih =>
      unfold miscellaneous
      refine keeps_rest.bind fun following _ => .ite (fun _ => .value trivial) fun _ => ?_
      refine (keeps_skipSpaces blind.forward).bind fun _ _ => ?_
      refine (keeps_comesNext _).bind fun _ _ => .ite (fun _ => ?_) fun _ => ?_
      · exact keeps_comment.bind fun _ _ => ih
      refine (keeps_comesNext _).bind fun _ _ => .ite (fun _ => ?_) fun _ => .value trivial
      exact keeps_processingInstruction.bind fun _ _ => ih

theorem keeps_between : Keeps (Reader.Sound begun) between fun _ => True := by
  have blind : Blind (Reader.Sound begun) := Reader.Sound.blind
  unfold between
  refine keeps_rest.bind fun _ _ => (keeps_miscellaneous _).bind fun _ _ => ?_
  exact keeps_skipSpaces blind.forward

theorem keeps_document : Keeps (Reader.Sound False) document fun _ => True := by
  have blind : Blind (Reader.Sound False) := Reader.Sound.blind
  unfold document
  refine (keeps_comesNext _).bind fun _ _ => .optional ?_ fun further => ?_
  · refine (keeps_comesNext _).bind fun _ _ => .optional ?_ fun further => ?_
    · refine keeps_between.bind fun _ _ => (keeps_comesNext _).bind fun _ _ => ?_
      refine .optional ?_ fun further => ?_
      · refine (keeps_comesNext _).bind fun _ _ => .optional ?_ fun further => ?_
        · refine keeps_rest.bind fun _ _ => (keeps_miscellaneous _).bind fun _ _ => ?_
          refine keeps_rest.bind fun _ _ => .require (.stop _) fun _ => ?_
          refine keeps_finishText.bind fun _ _ => Keeps.get.bind fun reader _ => ?_
          refine .refuse (.throw _) fun _ => ?_
          exact .ite (fun _ => .value trivial) fun _ => .throw _
        · refine (ensures_openingTag _).bind fun isOpen => .ite (fun opened => ?_) fun _ => ?_
          · have read : Ensures (fun reader => reader.Sound False ∧
                (isOpen = true → reader.opened ≠ [])) (content entityDepth)
                  fun _ => Reader.Sound False :=
              Ensures.weaken (keeps_content _) (fun _ found => found.1.begins (found.2 opened))
                fun _ _ found => found.1.forget
            exact read.bind fun _ => further
          · exact further.weaken (fun _ found => found.1) fun _ _ => id
      · exact keeps_documentType.bind fun _ _ => keeps_between.bind fun _ _ => further
    · exact (keeps_declaration blind).bind fun _ _ => further
  · exact (keeps_skip blind.forward 1).bind fun _ _ => further

end Building

/-- **What is read is sound, and it begins with an element.** -/
theorem parse_sound {text : String} {fragments : List Fragment}
    (parsed : parse text = .ok fragments) :
    (∀ fragment ∈ fragments, fragment.Sound) ∧
      ∀ fragment ∈ fragments.head?, fragment.isElement = true := by
  unfold parse at parsed
  split at parsed
  · rename_i reader ran
    cases parsed
    have sound := (keeps_document _ _ _ (Reader.Sound.start text) ran).1
    refine ⟨fun fragment listed => sound.finished fragment (List.mem_reverse.mp listed), ?_⟩
    rw [List.head?_reverse]
    exact sound.first
  · cases parsed

end Markup

end TreeQuery
