import TreeQuery.Markup.Document
import TreeQuery.Proofs.Document.Copies
import TreeQuery.Proofs.Markup.Soundness

/-!
# Documents that have been read

A document that has been read consists of what was read, settled (`Arena.content_ofFragments`).  So
it is sound, and it begins with an element (`Document.load_sound`).
-/

set_option autoImplicit false

namespace TreeQuery

open Markup

/-! ## Sound fragments settle -/

namespace Fragment

theorem mem_give {pair other : String × String} : {given : List (String × String)} →
    other ∈ give given pair → other = pair ∨ other ∈ given
  | [], member => .inl (List.mem_singleton.mp member)
  | first :: rest, member => by
      rw [give] at member
      split at member
      · exact (List.mem_cons.mp member).imp_right (List.mem_cons_of_mem first)
      · rcases List.mem_cons.mp member with rfl | later
        · exact .inr List.mem_cons_self
        · exact (mem_give later).imp_right (List.mem_cons_of_mem first)

theorem mem_foldl_give {other : String × String} : (attributes : List (String × String)) →
    {given : List (String × String)} → other ∈ attributes.foldl give given →
      other ∈ attributes ∨ other ∈ given
  | [], _, member => .inr member
  | pair :: rest, _, member => by
      rcases mem_foldl_give rest member with later | given
      · exact .inl (List.mem_cons_of_mem pair later)
      · rcases mem_give given with rfl | given
        · exact .inl List.mem_cons_self
        · exact .inr given

/-- Giving an attribute adds its name, if it is new, and keeps the others. -/
theorem mem_names_give {pair : String × String} {name : String} :
    (given : List (String × String)) →
      (name ∈ (give given pair).map (·.1) ↔ name = pair.1 ∨ name ∈ given.map (·.1))
  | [] => by simp [give]
  | first :: rest => by
      rw [give]
      split
      · rename_i same
        simp [same]
      · rw [List.map_cons, List.map_cons, List.mem_cons, List.mem_cons, mem_names_give rest]
        tauto

theorem nodup_give {pair : String × String} : {given : List (String × String)} →
    (given.map (·.1)).Nodup → ((give given pair).map (·.1)).Nodup
  | [], _ => List.nodup_singleton _
  | first :: rest, distinct => by
      rw [List.map_cons, List.nodup_cons] at distinct
      rw [give]
      split
      · rename_i same
        rw [List.map_cons, List.nodup_cons, ← same]
        exact distinct
      · rename_i different
        rw [List.map_cons, List.nodup_cons]
        refine ⟨fun repeated => ?_, nodup_give distinct.2⟩
        exact ((mem_names_give rest).mp repeated).elim different distinct.1

theorem mem_names_foldl_give {name : String} : (attributes : List (String × String)) →
    ∀ {given : List (String × String)}, name ∈ (attributes.foldl give given).map (·.1) ↔
      name ∈ attributes.map (·.1) ∨ name ∈ given.map (·.1)
  | [], given => by simp
  | pair :: rest, given => by
      rw [List.foldl_cons, mem_names_foldl_give rest, mem_names_give, List.map_cons,
        List.mem_cons]
      tauto

/-- Attributes that are given one after the other have different names. -/
theorem nodup_foldl_give : (attributes : List (String × String)) →
    ∀ {given : List (String × String)}, (given.map (·.1)).Nodup →
      ((attributes.foldl give given).map (·.1)).Nodup
  | [], _, distinct => distinct
  | _ :: rest, _, distinct => nodup_foldl_give rest (nodup_give distinct)

theorem Sound.isAttribute {fragment : Fragment} (sound : fragment.Sound) :
    fragment.isAttribute = false := by
  cases sound <;> rfl

mutual
/-- What has been read is sound once it is settled. -/
theorem Sound.settle : (fragment : Fragment) → fragment.Sound → fragment.settle.Sound
  | .element name attributes children, .element named given inside => by
      have below := Sound.settleAll children inside
      have plain : ∀ child ∈ Fragment.settleAll children, child.isAttribute = false :=
        fun child listed => (below child listed).isAttribute
      rw [Fragment.settle, attributesIn_eq_nil plain, List.foldl_nil,
        childrenIn_eq_self plain]
      refine .element named (fun pair member => given pair ?_) below
      exact (mem_foldl_give attributes member).resolve_right List.not_mem_nil
  | .text value, .text content => by
      rw [Fragment.settle]
      exact .text content

theorem Sound.settleAll : (fragments : List Fragment) →
    (∀ fragment ∈ fragments, fragment.Sound) → ∀ fragment ∈ settleAll fragments, fragment.Sound
  | [], _ => by
      rw [Fragment.settleAll]
      exact List.forall_mem_nil _
  | fragment :: rest, sound => by
      obtain ⟨first, others⟩ := List.forall_mem_cons.mp sound
      rw [Fragment.settleAll]
      exact List.forall_mem_cons.mpr ⟨Sound.settle fragment first, Sound.settleAll rest others⟩
end

theorem settleAll_eq_map (fragments : List Fragment) :
    settleAll fragments = fragments.map settle := by
  induction fragments with
  | nil => rw [settleAll, List.map_nil]
  | cons fragment rest ih => rw [settleAll, ih, List.map_cons]

theorem isElement_settle (fragment : Fragment) :
    fragment.settle.isElement = fragment.isElement := by
  cases fragment <;> simp [settle, isElement]

end Fragment

/-! ## Documents from fragments -/

open Fragment

theorem Arena.content_of_payload {arena : Arena} {slot : Nat}
    (payload : (arena.record slot).payload = .document) :
    arena.content slot = (arena.children slot).map arena.fragment := by
  rw [content, payload]

theorem Arena.payload_ofFragments (fragments : List Fragment) :
    ((Arena.ofFragments fragments).record 0).payload = .document := by
  rw [ofFragments, (graftAll_grows fragments .empty ⟨Nat.one_pos, .inl rfl⟩).2.payload]
  rfl

/-- **A document that is built from fragments consists of them, settled.** -/
theorem Arena.content_ofFragments {fragments : List Fragment}
    (plain : ∀ fragment ∈ fragments, fragment.isAttribute = false) :
    (Arena.ofFragments fragments).content 0 = settleAll fragments := by
  have below : ∀ fragment ∈ settleAll fragments, fragment.isAttribute = false := by
    rw [settleAll_eq_map]
    exact List.forall_mem_map.mpr fun fragment listed =>
      (isAttribute_settle fragment).trans (plain fragment listed)
  have received := graftAll_receives_settle fragments .empty ⟨Nat.one_pos, .inl rfl⟩
    fun fragment listed given => by
      rw [plain fragment listed] at given
      cases given
  obtain ⟨added, children, read⟩ := received.children
  rw [content_of_payload (payload_ofFragments fragments), ofFragments, children]
  exact read.trans (childrenIn_eq_self below)

/-! ## Documents from texts -/

namespace Document

/-- A document is read from a text if the text can be parsed. -/
theorem load_eq_ok {uri : Option String} {text : String} {document : Document} :
    Document.load uri text = .ok document ↔
      ∃ fragments, parse text = .ok fragments ∧ document = ⟨uri, Arena.ofFragments fragments⟩ := by
  unfold load Arena.load
  cases parse text with
  | ok fragments => simp [Except.map, eq_comm]
  | error fault => simp [Except.map]

/-- What a document consists of. -/
def content (document : Document) : List Fragment := document.arena.content 0

/-- **A document that has been read is sound, and it begins with an element.** -/
theorem content_sound {uri : Option String} {text : String} {document : Document}
    (loaded : Document.load uri text = .ok document) :
    (∀ fragment ∈ document.content, fragment.Sound) ∧
      (∀ fragment ∈ document.content, fragment.Settled) ∧
        ∀ fragment ∈ document.content.head?, fragment.isElement = true := by
  obtain ⟨fragments, parsed, rfl⟩ := load_eq_ok.mp loaded
  obtain ⟨sound, first⟩ := parse_sound parsed
  have read : (Arena.ofFragments fragments).content 0 = settleAll fragments :=
    Arena.content_ofFragments fun fragment listed => (sound fragment listed).isAttribute
  refine ⟨?_, (Arena.WellFormed.ofFragments fragments).settled_content 0, ?_⟩
  · rw [content, read]
    exact Sound.settleAll fragments sound
  · rw [content, read, settleAll_eq_map, List.head?_map]
    intro fragment member
    obtain ⟨top, head, rfl⟩ := Option.map_eq_some_iff.mp member
    exact (isElement_settle top).trans (first top head)

end Document

end TreeQuery
