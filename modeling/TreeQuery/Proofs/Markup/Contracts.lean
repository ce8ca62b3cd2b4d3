import TreeQuery.Markup.Document

/-!
# Contracts of reading

A contract says what holds of the value and the reader after a step of reading that does not stop,
given what held of the reader before it (`Ensures`).  Most steps keep a property of the reader and
give a value of which something is known (`Keeps`).

The steps that read single tokens move the cursor, and the declarations of a document type make
entities known; neither changes the document that is being built.  So they keep every property
that does not look at these parts of a reader (`Blind`).
-/

set_option autoImplicit false

namespace TreeQuery.Markup

open Text (Position)

/-! ## Contracts -/

/-- What holds after a step of reading that does not stop, given what holds before it. -/
def Ensures {α : Type} (before : Reader → Prop) (reading : Reading α)
    (after : α → Reader → Prop) : Prop :=
  ∀ reader value next, before reader → reading.run reader = .ok (value, next) → after value next

/-- Whether a step of reading keeps a property of the reader, and what holds of its value. -/
abbrev Keeps {α : Type} (property : Reader → Prop) (reading : Reading α) (fact : α → Prop) : Prop :=
  Ensures property reading fun value reader => property reader ∧ fact value

section Rules

variable {α β : Type} {before property : Reader → Prop} {reading : Reading α}
variable {after : α → Reader → Prop} {fact : α → Prop}

namespace Ensures

theorem bind {further : α → Reading β} {last : β → Reader → Prop}
    (first : Ensures before reading after)
    (second : ∀ value, Ensures (after value) (further value) last) :
    Ensures before (reading >>= further) last := by
  intro reader value next holds ran
  rw [StateT.run_bind] at ran
  cases began : reading.run reader with
  | error fault =>
      rw [began] at ran
      cases ran
  | ok result =>
      rw [began] at ran
      exact second _ _ value next (first reader _ _ holds began) ran

theorem pure {value : α} (holds : ∀ reader, before reader → after value reader) :
    Ensures before (pure value) after := by
  rintro reader _ _ given ⟨⟩
  exact holds reader given

/-- A value of which something is known. -/
theorem value {value : α} (holds : fact value) : Keeps property (Pure.pure value) fact :=
  pure fun _ given => ⟨given, holds⟩

theorem weaken {less : Reader → Prop} {more : α → Reader → Prop}
    (ensures : Ensures before reading after) (given : ∀ reader, less reader → before reader)
    (follows : ∀ value reader, after value reader → more value reader) :
    Ensures less reading more :=
  fun reader value next holds ran => follows _ _ (ensures reader value next (given _ holds) ran)

theorem throw (fault : Fault) : Ensures before (throw fault : Reading α) after :=
  fun _ _ _ _ ran => nomatch ran

theorem stopAt (position : Position) (cause : Cause) :
    Ensures before (stopAt position cause : Reading α) after := throw _

theorem stop (cause : Cause) : Ensures before (stop cause : Reading α) after :=
  fun _ _ _ _ ran => nomatch ran

theorem ite {condition : Prop} [Decidable condition] {other : Reading α}
    (yes : condition → Ensures before reading after)
    (no : ¬condition → Ensures before other after) :
    Ensures before (if condition then reading else other) after := by
  by_cases holds : condition
  · rw [if_pos holds]
    exact yes holds
  · rw [if_neg holds]
    exact no holds

/-- Reading that is refused under a condition goes on without it. -/
theorem refuse {condition : Prop} [Decidable condition] {stopping : Reading Unit}
    {further : Unit → Reading α} (stops : Ensures before stopping fun _ _ => False)
    (goesOn : ¬condition → Ensures before (further ()) after) :
    Ensures before (if condition then stopping >>= further else further ()) after :=
  ite (fun _ => bind stops fun _ _ _ _ never => never.elim) goesOn

/-- Reading that requires a condition goes on with it. -/
theorem require {condition : Prop} [Decidable condition] {stopping : Reading Unit}
    {further : Unit → Reading α} (stops : Ensures before stopping fun _ _ => False)
    (goesOn : condition → Ensures before (further ()) after) :
    Ensures before (if condition then further () else stopping >>= further) after :=
  ite goesOn fun _ => bind stops fun _ _ _ _ never => never.elim

/-- Reading with a part that is done under a condition only, and that goes on like the rest. -/
theorem optional {condition : Prop} [Decidable condition] {further : Reading α}
    (goesOn : Ensures before further after)
    (first : Ensures before further after → Ensures before reading after) :
    Ensures before (if condition then reading else further) after :=
  ite (fun _ => first goesOn) fun _ => goesOn

/-- What follows depends on the reader that has been looked at. -/
theorem get_bind {further : Reader → Reading α} {rest : Reader → Reader → Prop}
    (second : ∀ reader, before reader → Ensures (rest reader) (further reader) after)
    (given : ∀ reader, before reader → rest reader reader) :
    Ensures before (MonadState.get >>= further) after :=
  fun reader value next holds ran => second reader holds reader value next (given reader holds) ran

theorem set {reader : Reader} {holds : Reader → Prop} (known : holds reader) :
    Ensures before (set reader) fun _ reader => holds reader := by
  rintro _ _ _ _ ⟨⟩
  exact known

theorem modify {change : Reader → Reader} {holds : Reader → Prop}
    (changed : ∀ reader, before reader → holds (change reader)) :
    Ensures before (modify change) fun _ reader => holds reader := by
  rintro reader _ _ given ⟨⟩
  exact changed reader given

end Ensures

namespace Keeps

/-- A step that keeps a property, followed by others. -/
theorem bind {further : α → Reading β} {last : β → Reader → Prop}
    (first : Keeps property reading fact)
    (second : ∀ value, fact value → Ensures property (further value) last) :
    Ensures property (reading >>= further) last :=
  Ensures.bind first fun value reader result next holds ran =>
    second value holds.2 reader result next holds.1 ran

theorem weaken {less : α → Prop} (keeps : Keeps property reading fact)
    (follows : ∀ value, fact value → less value) : Keeps property reading less :=
  Ensures.weaken keeps (fun _ => id) fun value _ holds => ⟨holds.1, follows value holds.2⟩

/-- A step of which nothing is known but that it keeps a property. -/
theorem trivial (keeps : Keeps property reading fact) : Keeps property reading fun _ => True :=
  keeps.weaken fun _ _ => True.intro

theorem get : Keeps property get fun _ => True := by
  rintro reader _ _ holds ⟨⟩
  exact ⟨holds, True.intro⟩

theorem modify {change : Reader → Reader}
    (changed : ∀ reader, property reader → property (change reader)) :
    Keeps property (modify change) fun _ => True :=
  Ensures.weaken (Ensures.modify changed) (fun _ => id) fun _ _ holds => ⟨holds, True.intro⟩

/-- What is kept whatever else holds of the cursor is kept. -/
theorem anywhere (keeps : ∀ place : Cursor → Prop,
    Keeps (fun reader => property reader ∧ place reader.cursor) reading fact) :
    Keeps property reading fact :=
  Ensures.weaken (keeps fun _ => True) (fun _ holds => ⟨holds, True.intro⟩)
    fun _ _ holds => ⟨holds.1.1, holds.2⟩

/-- A result that needs no reader. -/
theorem lift (result : Except Fault α) :
    Keeps property (liftM result : Reading α) fun value => result = .ok value := by
  intro reader value next holds ran
  cases result with
  | error fault => cases ran
  | ok result =>
      cases ran
      exact ⟨holds, rfl⟩

end Keeps

end Rules

/-! ## Tokens -/

/-- Whether a property of readers does not look at the cursor and the entities. -/
def Blind (property : Reader → Prop) : Prop :=
  ∀ reader cursor entities references, property reader →
    property { reader with cursor := cursor, entities := entities, references := references }

/-- Whether a property of readers is kept when characters are skipped. -/
def Forward (property : Reader → Prop) : Prop :=
  ∀ reader count, property reader →
    property { reader with cursor := reader.cursor.drop count }

theorem Blind.forward {property : Reader → Prop} (blind : Blind property) : Forward property :=
  fun reader _ holds => blind reader _ reader.entities reader.references holds

section Tokens

variable {α : Type} {property : Reader → Prop}

theorem keeps_here : Keeps property here fun _ => True :=
  Keeps.get.bind fun _ _ => .value trivial

theorem keeps_rest : Keeps property rest fun _ => True :=
  Keeps.get.bind fun _ _ => .value trivial

theorem keeps_comesNext (text : String) : Keeps property (comesNext text) fun _ => True :=
  keeps_rest.bind fun _ _ => .value trivial

theorem keeps_current : Keeps property current fun _ => True := by
  unfold current
  refine keeps_rest.bind fun following _ => ?_
  cases following with
  | nil => exact .throw _
  | cons c _ => exact .value trivial

theorem keeps_skip (forward : Forward property) (count : Nat) :
    Keeps property (skip count) fun _ => True := by
  rintro reader _ _ holds ⟨⟩
  exact ⟨forward reader count holds, trivial⟩

theorem keeps_runOf (forward : Forward property) (member : Char → Bool) :
    Keeps property (runOf member) fun run => run.all member = true := by
  unfold runOf
  refine keeps_rest.bind fun following _ => ?_
  refine (keeps_skip forward _).bind fun _ _ => ?_
  exact .value List.all_takeWhile

theorem keeps_expect (forward : Forward property) (c : Char) :
    Keeps property (expect c) fun _ => True := by
  unfold expect
  refine keeps_current.bind fun found _ => ?_
  exact .ite (fun _ => keeps_skip forward 1) fun _ => .stop _

theorem keeps_expectText (forward : Forward property) (text : String) :
    Keeps property (expectText text) fun _ => True := by
  unfold expectText
  refine (keeps_comesNext text).bind fun _ _ => ?_
  exact .ite (fun _ => keeps_skip forward _) fun _ => .stop _

theorem keeps_skipSpaces (forward : Forward property) :
    Keeps property skipSpaces fun _ => True := by
  unfold skipSpaces
  exact (keeps_runOf forward _).bind fun _ _ => .value trivial

theorem keeps_spaces (forward : Forward property) : Keeps property spaces fun _ => True := by
  unfold spaces
  refine keeps_current.bind fun found _ => ?_
  exact .ite (fun _ => keeps_skipSpaces forward) fun _ => .stop _

theorem keeps_equals (forward : Forward property) : Keeps property equals fun _ => True := by
  unfold equals
  refine (keeps_skipSpaces forward).bind fun _ _ => ?_
  exact (keeps_expect forward _).bind fun _ _ => keeps_skipSpaces forward

theorem keeps_openingQuote (forward : Forward property) :
    Keeps property openingQuote fun _ => True := by
  unfold openingQuote
  refine keeps_current.bind fun found _ => ?_
  exact .ite (fun _ => (keeps_skip forward 1).bind fun _ _ => .value trivial) fun _ => .stop _

theorem keeps_nameOrEnd (forward : Forward property) :
    Keeps property nameOrEnd fun _ => True := by
  unfold nameOrEnd
  refine keeps_rest.bind fun following _ => ?_
  cases following with
  | nil => exact .value trivial
  | cons c _ => exact .ite (fun _ => (keeps_runOf forward _).trivial) fun _ => .stop _

theorem keeps_name (forward : Forward property) : Keeps property name fun _ => True := by
  unfold name
  refine (keeps_nameOrEnd forward).bind fun run _ => ?_
  exact .refuse (.stop _) fun _ => .value trivial

/-- Whether a name is a local part of a qualified name. -/
def isLocalName (name : String) : Bool :=
  wellStarted name.toList && name.toList.all continuesName

/-- The local part of a qualified name that is read. -/
theorem keeps_qualifiedName (forward : Forward property) :
    Keeps property qualifiedName fun read => isLocalName read.2 = true := by
  have isLocal : ∀ run : List Char, run.all continuesName = true → wellStarted run = true →
      isLocalName (String.ofList run) = true := by
    intro run continues starts
    rw [isLocalName, String.toList_ofList, continues, starts, Bool.and_self]
  unfold qualifiedName
  refine keeps_here.bind fun start _ => ?_
  refine (keeps_runOf forward _).bind fun first continues => ?_
  refine (keeps_comesNext _).bind fun colon _ => ?_
  refine .ite (fun _ => ?_) fun _ => ?_
  · refine (keeps_skip forward 1).bind fun _ _ => ?_
    refine (keeps_runOf forward _).bind fun second continues => ?_
    refine (keeps_comesNext _).bind fun colon _ => ?_
    refine .refuse (.stopAt _ _) fun _ => ?_
    refine .require (.stopAt _ _) fun _ => ?_
    exact .require (.stopAt _ _) fun starts => .value (isLocal second continues starts)
  · exact .require (.stopAt _ _) fun starts => .value (isLocal first continues starts)

/-! ## Runs of characters -/

/-- A run of characters is followed by what comes where reading does not go on, and has only
characters that a document may hold. -/
theorem scan_eq_ok {goesOn : List Char → Bool} : {text : List Char} → {position : Position} →
    {run : List Char} → {cursor : Cursor} → scan goesOn text position = .ok (run, cursor) →
      run.all isDocumentChar = true
  | [], _, _, _, scanned => by
      cases scanned
      rfl
  | c :: rest, position, run, cursor, scanned => by
      rw [scan] at scanned
      split at scanned
      · cases scanned
      · rename_i allowed
        rw [Bool.not_eq_true, Bool.not_eq_false'] at allowed
        split at scanned
        · split at scanned
          · rename_i others next found
            cases scanned
            rw [List.all_cons, allowed, scan_eq_ok found, Bool.and_self]
          · cases scanned
        · cases scanned
          rfl

theorem keeps_runWhile (blind : Blind property) (goesOn : List Char → Bool) :
    Keeps property (runWhile goesOn) fun cursor => cursor.rest.all isDocumentChar = true := by
  unfold runWhile
  refine Keeps.get.bind fun reader _ => ?_
  refine (Keeps.lift _).bind fun scanned found => ?_
  refine (Keeps.modify fun reader holds =>
    blind reader scanned.2 reader.entities reader.references holds).bind fun _ _ => ?_
  exact .value (scan_eq_ok found)

theorem keeps_runUpTo (blind : Blind property) (text : String) :
    Keeps property (runUpTo text) fun cursor => cursor.rest.all isDocumentChar = true :=
  keeps_runWhile blind _

theorem keeps_quotedValue (blind : Blind property) :
    Keeps property quotedValue fun _ => True := by
  unfold quotedValue
  refine (keeps_openingQuote blind.forward).bind fun quote _ => ?_
  refine (keeps_runWhile blind _).bind fun value _ => ?_
  exact (keeps_expect blind.forward _).bind fun _ _ => .value trivial

/-! ## References -/

theorem isDocumentChar_of_referencedChar? {base : Nat} {digits : List Char} {c : Char}
    (found : referencedChar? base digits = some c) : isDocumentChar c = true := by
  unfold referencedChar? at found
  split at found
  · cases found
  · dsimp only at found
    split at found
    · cases found
    · obtain ⟨allowed, same⟩ := Option.ite_none_right_eq_some.mp found
      exact Option.some.inj same ▸ allowed

theorem isDocumentChar_of_namedReference {name : String} {c : Char}
    (found : namedReference name = .character c) : isDocumentChar c = true := by
  unfold namedReference at found
  split at found <;> cases found <;> decide

/-- A character that is given by a reference is one that a document may hold. -/
theorem isDocumentChar_of_reference? {text : List Char} {c : Char} {length : Nat}
    (found : reference? text = some (.character c, length)) : isDocumentChar c = true := by
  have finished : ∀ {given : Reference} {count : Nat},
      (if (text.drop count).head? = some ';' then some (given, count + 1) else none) =
        some (Reference.character c, length) → given = .character c := by
    intro given count found
    split at found
    · cases found
      rfl
    · cases found
  unfold reference? at found
  dsimp only at found
  split at found
  · obtain ⟨d, referenced, found⟩ := Option.bind_eq_some_iff.mp found
    cases finished found
    exact isDocumentChar_of_referencedChar? referenced
  · obtain ⟨d, referenced, found⟩ := Option.bind_eq_some_iff.mp found
    cases finished found
    exact isDocumentChar_of_referencedChar? referenced
  · split at found
    · exact isDocumentChar_of_namedReference (finished found)
    · cases found
  · cases found

theorem keeps_reference (forward : Forward property) :
    Keeps property reference fun found => ∀ c, found = .inl c → isDocumentChar c = true := by
  unfold reference
  refine keeps_rest.bind fun following _ => ?_
  split
  · exact .stop _
  · rename_i c length found
    refine (keeps_skip forward length).bind fun _ _ => .value ?_
    rintro _ ⟨⟩
    exact isDocumentChar_of_reference? found
  · refine Keeps.get.bind fun reader _ => ?_
    split
    · exact .stop _
    · exact (keeps_skip forward _).bind fun _ _ => .value nofun

/-- What is done with the cursor elsewhere leaves the cursor where it was. -/
theorem keeps_elsewhere {reading : Reading α} {fact : α → Prop} {inside : Reader → Prop}
    {cursor : Cursor} (blind : Blind property)
    (enters : ∀ reader, property reader → inside { reader with cursor := cursor })
    (keeps : Ensures inside reading fun value reader => property reader ∧ fact value)
    (place : Cursor → Prop) :
    Keeps (fun reader => property reader ∧ place reader.cursor) (elsewhere cursor reading)
      fact := by
  unfold elsewhere
  refine .get_bind (fun reader back => ?_) fun _ holds => holds.1
  refine Ensures.bind (Ensures.modify enters) fun _ => keeps.bind fun value => ?_
  have returns : Ensures property (moveTo reader.cursor) fun _ other =>
      property other ∧ place other.cursor :=
    Ensures.modify fun other holds =>
      ⟨blind other reader.cursor other.entities other.references holds, back.2⟩
  intro other _ _ holds ran
  exact returns.bind (fun _ => .value holds.2) other _ _ holds.1 ran

/-- A reference to an entity is followed with what holds of the cursor before. -/
theorem keeps_enterEntity {nested : Option (Reading α)} {fact : α → Prop} (blind : Blind property)
    (keeps : ∀ reading ∈ nested, Keeps property reading fact) (levels : Nat) (value : Cursor)
    (place : Cursor → Prop) :
    Keeps (fun reader => property reader ∧ place reader.cursor) (enterEntity levels nested value)
      fact := by
  have counted : ∀ count : Reader → Nat, Keeps (fun reader => property reader ∧
      place reader.cursor) (modify fun reader => { reader with references := count reader })
      fun _ => True := by
    intro count
    exact Keeps.modify fun reader holds =>
      ⟨blind reader reader.cursor reader.entities _ holds.1, holds.2⟩
  unfold enterEntity
  refine .optional ?_ fun followed => ?_
  · cases nested with
    | none => exact .stop _
    | some reading =>
        have enters : ∀ reader, property reader → property { reader with cursor := value } :=
          fun reader => blind reader value reader.entities reader.references
        refine (keeps_elsewhere blind enters (keeps reading rfl) place).bind fun value fact => ?_
        refine .optional (.value fact) fun given => ?_
        exact (counted fun _ => 0).bind fun _ _ => given
  · refine Keeps.get.bind fun reader _ => .refuse (.stop _) fun _ => ?_
    exact (counted fun reader => reader.references + 1).bind fun _ _ => followed

/-! ## Attribute values -/

theorem keeps_attributeChars {nested : Option (Reading (List Char))} (blind : Blind property)
    (keeps : ∀ reading ∈ nested, Keeps property reading fun _ => True) (levels limit : Nat) :
    Keeps property (attributeChars levels nested limit) fun _ => True := by
  induction limit with
  | zero => exact .value trivial
  | succ limit ih =>
      unfold attributeChars
      refine keeps_rest.bind fun following _ => ?_
      split
      · exact .value trivial
      · refine keeps_here.bind fun start _ => ?_
        refine (keeps_reference blind.forward).bind fun found _ => ?_
        cases found with
        | inl c =>
            refine .refuse (.stopAt _ _) fun _ => ?_
            exact ih.bind fun _ _ => .value trivial
        | inr value =>
            have entered : Keeps property (enterEntity levels nested value) fun _ => True :=
              .anywhere (keeps_enterEntity blind keeps levels value)
            exact entered.bind fun _ _ => ih.bind fun _ _ => .value trivial
      · refine (keeps_skip blind.forward 1).bind fun _ _ => ?_
        exact ih.bind fun _ _ => .value trivial

theorem keeps_attributeValue (blind : Blind property) (levels : Nat) :
    Keeps property (attributeValue levels) fun _ => True := by
  induction levels with
  | zero => exact keeps_rest.bind fun _ _ =>
        keeps_attributeChars blind (by rintro _ ⟨⟩) _ _
  | succ levels ih =>
      refine keeps_rest.bind fun _ _ => keeps_attributeChars blind ?_ _ _
      rintro _ ⟨⟩
      exact ih

/-! ## Declarations -/

theorem keeps_quotedText (forward : Forward property) :
    Keeps property quotedText fun _ => True := by
  unfold quotedText
  refine (keeps_openingQuote forward).bind fun quote _ => ?_
  exact (keeps_runOf forward _).bind fun _ _ => keeps_expect forward _

theorem keeps_externalId (forward : Forward property) :
    Keeps property externalId fun _ => True := by
  unfold externalId
  refine (keeps_comesNext _).bind fun _ _ => .ite (fun _ => ?_) fun _ => ?_
  · refine (keeps_skip forward _).bind fun _ _ => (keeps_spaces forward).bind fun _ _ => ?_
    exact (keeps_quotedText forward).bind fun _ _ => .value trivial
  · refine (keeps_comesNext _).bind fun _ _ => .ite (fun _ => ?_) fun _ => .value trivial
    refine (keeps_skip forward _).bind fun _ _ => (keeps_spaces forward).bind fun _ _ => ?_
    refine (keeps_quotedText forward).bind fun _ _ => (keeps_spaces forward).bind fun _ _ => ?_
    exact (keeps_quotedText forward).bind fun _ _ => .value trivial

theorem keeps_entityDefinition (forward : Forward property) (isGeneral : Bool) :
    Keeps property (entityDefinition isGeneral) fun _ => True := by
  unfold entityDefinition
  refine keeps_current.bind fun found _ => .ite (fun _ => ?_) fun _ => ?_
  · refine (keeps_openingQuote forward).bind fun quote _ => keeps_here.bind fun start _ => ?_
    refine (keeps_runOf forward _).bind fun value _ => ?_
    exact (keeps_expect forward _).bind fun _ _ => .value trivial
  · refine .ite (fun _ => ?_) fun _ => .stop _
    refine (keeps_externalId forward).bind fun isExternal _ => .require (.stop _) fun _ => ?_
    refine .ite (fun _ => ?_) fun _ => .value trivial
    refine (keeps_skipSpaces forward).bind fun _ _ => (keeps_comesNext _).bind fun _ _ => ?_
    refine .ite (fun _ => ?_) fun _ => .value trivial
    refine (keeps_skip forward _).bind fun _ _ => (keeps_spaces forward).bind fun _ _ => ?_
    exact (keeps_nameOrEnd forward).bind fun _ _ => .value trivial

theorem keeps_entityDeclaration (blind : Blind property) :
    Keeps property entityDeclaration fun _ => True := by
  have forward := blind.forward
  unfold entityDeclaration
  refine (keeps_skip forward _).bind fun _ _ => (keeps_spaces forward).bind fun _ _ => ?_
  refine (keeps_comesNext _).bind fun isParameter _ => .optional ?_ fun named => ?_
  · refine (keeps_name forward).bind fun name _ => (keeps_spaces forward).bind fun _ _ => ?_
    refine (keeps_entityDefinition forward _).bind fun definition _ => ?_
    have ended : Keeps property (skipSpaces >>= fun _ => expect '>') fun _ => True :=
      (keeps_skipSpaces forward).bind fun _ _ => keeps_expect forward _
    cases definition with
    | none => exact ended
    | some value =>
        refine (Keeps.modify fun reader holds => ?_).bind fun _ _ => ended
        exact blind reader reader.cursor _ reader.references holds
  · exact (keeps_skip forward _).bind fun _ _ => (keeps_spaces forward).bind fun _ _ => named

theorem keeps_otherDeclaration (forward : Forward property) (start : Position) :
    Keeps property (otherDeclaration start) fun _ => True := by
  unfold otherDeclaration
  refine (keeps_runOf forward _).bind fun _ _ => keeps_rest.bind fun _ _ => ?_
  exact .refuse (.stopAt _ _) fun _ => keeps_expect forward _

theorem keeps_declarationSpaces (forward : Forward property) :
    Keeps property declarationSpaces fun _ => True := by
  unfold declarationSpaces
  refine keeps_rest.bind fun following _ => ?_
  cases following with
  | nil => exact .value trivial
  | cons c _ =>
      refine .ite (fun _ => keeps_skipSpaces forward) fun _ => ?_
      refine (keeps_comesNext _).bind fun _ _ => ?_
      exact .ite (fun _ => .value trivial) fun _ => .stop _

theorem keeps_declarationAttribute (blind : Blind property) :
    Keeps property declarationAttribute fun _ => True := by
  unfold declarationAttribute
  refine (keeps_qualifiedName blind.forward).bind fun _ _ => ?_
  refine (keeps_equals blind.forward).bind fun _ _ => ?_
  exact (keeps_quotedValue blind).bind fun _ _ => .value trivial

theorem keeps_declaration (blind : Blind property) :
    Keeps property declaration fun _ => True := by
  have forward := blind.forward
  have given := keeps_declarationAttribute blind
  have spaced := keeps_declarationSpaces forward
  unfold declaration
  refine (keeps_skip forward _).bind fun _ _ => spaced.bind fun _ _ => ?_
  refine (keeps_comesNext _).bind fun _ _ => .require (.stop _) fun _ => ?_
  refine given.bind fun _ _ => spaced.bind fun _ _ => ?_
  refine (keeps_comesNext _).bind fun _ _ => .optional ?_ fun further => ?_
  · refine (keeps_comesNext _).bind fun _ _ => .optional ?_ fun further => ?_
    · exact (keeps_skipSpaces forward).bind fun _ _ => keeps_expectText forward _
    · exact given.bind fun _ _ => further
  · exact given.bind fun _ _ => spaced.bind fun _ _ => further

end Tokens

end TreeQuery.Markup
