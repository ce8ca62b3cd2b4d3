import TreeQuery.Document.Node
import TreeQuery.Proofs.Document.Loading
import TreeQuery.Proofs.Markup.Replay

/-!
# Documents that are loaded from their compact form

The compact form of a document that has been read is markup, and it is read again if there is one
root and no attribute value has a character that no document may hold (`load_compact_eq_ok_iff`).
What is read is the same up to line ends and white space: these are normalized when they are read,
and they are not written as references.  Only a carriage return beside a reference in a text can be
read as it is.  So the compact form is preserved exactly if nothing is normalized
(`load_compact_iff`), and it is not for a carriage return that was given by a reference
(`load_compact_return`).
-/

set_option autoImplicit false

namespace TreeQuery.Document

open Markup Fragment

/-! ## Durable documents -/

/-- The compact form of a document. -/
def compact (document : Document) : String := compactAll document.content

/-- The compact form of a document is what its document node has in common with nodes that are
equal to it by value. -/
theorem compact_eq_valueKey {Home : Type} (document : Document) (home : Home) :
    document.compact = Node.valueKey (fun _ => document.arena) ⟨home, 0⟩ := rfl

/-- Whether a document survives being written in compact form and read again: there is one
fragment at the top, and it is durable once texts that follow each other are made one. -/
def isDurable (document : Document) : Bool :=
  document.content.length = 1 && allDurable (mergedAll document.content)

theorem mergedAll_singleton (fragment : Fragment) : mergedAll [fragment] = [fragment.merged] := by
  rw [mergedAll, mergedAll]
  cases fragment.merged <;> rfl

/-- A document is durable if it is a single fragment that can be read again and is then, up to where
texts are divided, what it was. -/
theorem isDurable_eq_true_iff {document : Document} : document.isDurable = true ↔
    ∃ root, document.content = [root] ∧ root.merged.isReadable = true ∧
      root.merged.reread = root.merged := by
  rw [isDurable, Bool.and_eq_true, decide_eq_true_iff, List.length_eq_one_iff]
  constructor
  · rintro ⟨⟨root, parts⟩, durable⟩
    rw [parts, mergedAll_singleton, allDurable, Bool.and_eq_true, isDurable_iff] at durable
    exact ⟨root, parts, durable.1⟩
  · rintro ⟨root, parts, kept⟩
    rw [parts, mergedAll_singleton, allDurable, allDurable, (isDurable_iff root.merged).mpr kept]
    exact ⟨⟨root, rfl⟩, rfl⟩

/-- A document with one fragment at the top is written like that fragment with its texts merged. -/
theorem compact_eq_of_content {document : Document} {root : Fragment}
    (parts : document.content = [root]) : document.compact = compactAll [root.merged] := by
  rw [compact, parts, compactAll, compactAll, compactAll, compactAll, compact_merged]

/-! ## Reading compact forms -/

/-- A root that is written is all that a document read from it consists of. -/
theorem content_of_written {uri : Option String} {root : Fragment} (written : root.Written) :
    (⟨uri, Arena.ofFragments [root]⟩ : Document).content = [root] := by
  have settled := Written.settledAll [root] (List.forall_mem_singleton.mpr written)
  rw [content, Arena.content_ofFragments (List.forall_mem_singleton.mpr written.isAttribute),
    Settled.settleAll_eq_self [root] settled]

/-- Written roots are told apart by their compact form. -/
theorem compactAll_singleton_inj {root other : Fragment} (written : root.Written)
    (writtenToo : other.Written) (same : compactAll [root] = compactAll [other]) :
    root = other := by
  have legible : ∀ {root : Fragment}, root.Written → Legible [root] := fun written =>
    Written.legible (List.forall_mem_singleton.mpr written) (.singleton _)
  have bare := congrArg (·.toList ++ []) same
  have found := (compactAll_append_inj [root] [other] (legible written) (legible writtenToo)
    (.inl rfl) (.inl rfl) bare).1
  exact List.singleton_inj.mp found

/-- The empty text is not a document. -/
theorem parse_empty : parse "" = .error .noRoot := rfl

section Loaded

variable {uri other : Option String} {text : String} {document again : Document}
variable (loaded : Document.load uri text = .ok document)
include loaded

/-- A document that has been read is written from its first element on. -/
theorem mergedAll_content : document.content = [] ∨ ∃ root more,
    document.content = root :: more ∧ root.merged.isElement = true ∧
      mergedAll document.content = root.merged :: mergedAll more ∧
        ∀ fragment ∈ root.merged :: mergedAll more, fragment.Written := by
  obtain ⟨sound, settled, first⟩ := content_sound loaded
  cases parts : document.content with
  | nil => exact .inl rfl
  | cons root more =>
      rw [parts] at sound settled first
      have element := (isElement_merged root).trans (first root rfl)
      have merged : mergedAll (root :: more) = root.merged :: mergedAll more := by
        rw [mergedAll, prepend_of_isText_eq_false (isText_eq_false element)]
      exact .inr ⟨root, more, rfl, element, merged,
        merged ▸ Sound.mergedAll (root :: more) sound settled⟩

theorem written_merged {root : Fragment} (parts : document.content = [root]) :
    root.merged.Written := by
  rcases mergedAll_content loaded with empty | ⟨first, _, partsToo, _, _, written⟩
  · rw [parts] at empty
    cases empty
  · rw [parts, List.cons.injEq] at partsToo
    exact partsToo.1 ▸ written first.merged List.mem_cons_self

/-- What a document is when it is read from the compact form of another. -/
theorem load_compact_eq_ok_iff : Document.load other document.compact = .ok again ↔
    ∃ root, document.content = [root] ∧ root.merged.isReadable = true ∧
      again = ⟨other, Arena.ofFragments [root.merged.reread]⟩ := by
  rw [load_eq_ok, compact, ← compactAll_mergedAll]
  rcases mergedAll_content loaded with empty | ⟨root, more, parts, element, merged, written⟩
  · rw [empty, mergedAll, compactAll, parse_empty]
    simp
  · rw [merged, parts]
    constructor
    · rintro ⟨fragments, parsed, rfl⟩
      obtain ⟨alone, readable, rfl⟩ := (parse_compactAll_iff element written).mp parsed
      exact ⟨root, by rw [mergedAll_eq_nil.mp alone], readable, rfl⟩
    · rintro ⟨_, ⟨⟩, readable, rfl⟩
      exact ⟨_, (parse_compactAll_iff element written).mpr ⟨mergedAll.eq_1, readable, rfl⟩, rfl⟩

/-- What is read from the compact form of a document has the same compact form exactly if the
document is durable. -/
theorem compact_eq_iff_of_load_compact
    (reloaded : Document.load other document.compact = .ok again) :
    again.compact = document.compact ↔ document.isDurable = true := by
  obtain ⟨root, parts, readable, rfl⟩ := (load_compact_eq_ok_iff loaded).mp reloaded
  have written := written_merged loaded parts
  rw [compact_eq_of_content parts, compact, content_of_written written.reread,
    isDurable_eq_true_iff]
  constructor
  · intro same
    exact ⟨root, parts, readable, compactAll_singleton_inj written.reread written same⟩
  · rintro ⟨first, partsToo, _, kept⟩
    obtain rfl := List.singleton_inj.mp (parts.symm.trans partsToo)
    rw [kept]

/-- A durable document is read again from its compact form. -/
theorem exists_load_compact (durable : document.isDurable = true) :
    ∃ again, Document.load other document.compact = .ok again := by
  obtain ⟨root, parts, readable, _⟩ := isDurable_eq_true_iff.mp durable
  exact ⟨_, (load_compact_eq_ok_iff loaded).mpr ⟨root, parts, readable, rfl⟩⟩

/-- **A document is read again from its compact form, with the same compact form, exactly if it is
durable.** -/
theorem load_compact_iff : (∃ again, Document.load other document.compact = .ok again ∧
    again.compact = document.compact) ↔ document.isDurable = true := by
  constructor
  · rintro ⟨again, reloaded, kept⟩
    exact (compact_eq_iff_of_load_compact loaded reloaded).mp kept
  · intro durable
    obtain ⟨again, reloaded⟩ := exists_load_compact loaded durable
    exact ⟨again, reloaded, (compact_eq_iff_of_load_compact loaded reloaded).mpr durable⟩

end Loaded

/-- A document with escaped characters in a value and behind a carriage return. -/
theorem load_compact_iff_escaped :
    ∃ document, Document.load none "<a k='x &lt; y'>1&#13;&lt;<b/></a>" = .ok document ∧
      ∃ again, Document.load (some "f") document.compact = .ok again ∧
        again.compact = document.compact := by
  have durable : (Document.load none "<a k='x &lt; y'>1&#13;&lt;<b/></a>").toOption.any
      isDurable = true := by decide +kernel
  cases loaded : Document.load none "<a k='x &lt; y'>1&#13;&lt;<b/></a>" with
  | error failure =>
      rw [loaded] at durable
      cases durable
  | ok document =>
      rw [loaded] at durable
      exact ⟨document, rfl, (load_compact_iff loaded).mpr durable⟩

/-- A carriage return that is given by a reference is written as it is, and it is read again as a
line feed. -/
theorem load_compact_return :
    ∃ document, Document.load none "<a>x&#13;y</a>" = .ok document ∧
      ¬∃ again, Document.load none document.compact = .ok again ∧
        again.compact = document.compact := by
  have written : (Document.load none "<a>x&#13;y</a>").toOption.map compact =
      some "<a>x\ry</a>" := by decide +kernel
  have read : (Document.load none "<a>x\ry</a>").toOption.map compact =
      some "<a>x\ny</a>" := by decide +kernel
  cases loaded : Document.load none "<a>x&#13;y</a>" with
  | error failure =>
      rw [loaded] at written
      cases written
  | ok document =>
      refine ⟨document, rfl, ?_⟩
      rintro ⟨again, reloaded, kept⟩
      rw [loaded] at written
      have same : document.compact = "<a>x\ry</a>" := Option.some.inj written
      rw [same] at reloaded kept
      rw [reloaded] at read
      exact absurd (kept.symm.trans (Option.some.inj read)) (by decide)

end TreeQuery.Document
