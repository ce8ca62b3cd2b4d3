import Mathlib.Data.List.DropRight
import TreeQuery.CommandLine.Rendering
import TreeQuery.Proofs.Node.ValueKeys
import TreeQuery.Proofs.Text.Json
import TreeQuery.Proofs.Text.Lines

/-!
# What a rendering keeps

A rendering is meant to give the serialization of a result as it is, or a summary that holds the
compact form of every item as it is (`Rendering.exact`).  Each format has one kind of text that it
changes instead.  Text loses the carriage returns directly before line feeds, since it takes these
for line ends; an item of a summary loses all blanks it ends in, since with its line end everything
blank is dropped.  Nothing else is lost: where no such text is met, a rendering is exact, and where
one is, it is not (`Rendering.render_eq_exact_iff`).

Elements and attributes never end in a blank, so a summary of these is always exact
(`Rendering.losesNothing_of_kinds`).
-/

set_option autoImplicit false

namespace TreeQuery

variable {Home : Type} (view : View Home)

/-! ## Blanks at the end -/

namespace Text

/-- Whether a text ends in a blank. -/
def endsInBlank (text : String) : Bool := text.toList.getLast?.any isBlank

/-- The line end of a text is dropped with the blanks before it. -/
theorem dropTrailingBlanks_append_lineFeed (text : String) :
    dropTrailingBlanks (text ++ "\n") = dropTrailingBlanks text := by
  have lineFeed : isBlank '\n' = true := by decide
  simp [dropTrailingBlanks, lineFeed]

/-- A text keeps the blanks at its end exactly if there are none. -/
theorem dropTrailingBlanks_eq_iff (text : String) :
    dropTrailingBlanks text = text ↔ endsInBlank text = false := by
  have chars : dropTrailingBlanks text = text ↔
      text.toList.rdropWhile isBlank = text.toList := by
    rw [← String.toList_inj, dropTrailingBlanks, String.toList_ofList, List.rdropWhile]
  rw [chars, List.rdropWhile_eq_self_iff, endsInBlank]
  cases last : text.toList.getLast? with
  | none => simp [List.getLast?_eq_none_iff.mp last]
  | some c =>
      obtain ⟨init, split⟩ := List.getLast?_eq_some_iff.mp last
      simp [split]

theorem endsInBlank_append {first second : String} (more : second ≠ "") :
    endsInBlank (first ++ second) = endsInBlank second := by
  have some : second.toList ≠ [] := by simpa using more
  rw [endsInBlank, endsInBlank, String.toList_append, List.getLast?_append_of_ne_nil _ some]

end Text

open Text (endsInBlank endsInBlank_append)

/-! ## Items -/

/-- The compact form of a node as an item of its own, without its line end. -/
def Node.compactItem (node : Node Home) : String :=
  match node.content view with
  | [fragment] => fragment.compactItem
  | fragments => Fragment.compactAll fragments

theorem Node.serialize_single (node : Node Home) :
    Node.serialize view ⟨false, false⟩ [node] = node.compactItem view ++ "\n" := by
  have item : Node.serialize view ⟨false, false⟩ [node] =
      Layout.item ⟨false, false⟩ (node.content view) := by
    simp [Node.serialize, Layout.write, Layout.items]
  rw [item, Node.compactItem]
  generalize node.content view = content
  rcases content with _ | ⟨fragment, _ | ⟨another, content⟩⟩ <;> rfl

/-- A tag ends in an angle bracket and an attribute in a quote; neither is blank. -/
theorem Fragment.endsInBlank_compactItem {fragment : Fragment} (notText : fragment.kind ≠ .text) :
    endsInBlank fragment.compactItem = false := by
  cases fragment with
  | element name attributes children =>
      cases children with
      | nil => exact endsInBlank_append (by decide)
      | cons child children => exact endsInBlank_append (by decide)
  | «attribute» name value =>
      rw [compactItem, writeAttributeItem, writeAttribute, ← String.append_assoc]
      exact endsInBlank_append (by decide)
  | text value => exact absurd rfl notText

theorem Node.endsInBlank_compactItem (formed : view.WellFormed) {node : Node Home}
    (kind : node.kind view = .element ∨ node.kind view = .attribute) :
    endsInBlank (node.compactItem view) = false := by
  have below : node.kind view ≠ .document := by
    rcases kind with kind | kind <;> rw [kind] <;> exact nofun
  have notText : (node.fragment view).kind ≠ .text := by
    rw [← kind_eq_kind_fragment formed below]
    rcases kind with kind | kind <;> rw [kind] <;> exact nofun
  rw [Node.compactItem, content_of_kind below]
  exact Fragment.endsInBlank_compactItem notText

end TreeQuery

namespace TreeQuery.CommandLine

open Text (Json withoutLineEnd endsInBlank)

/-! ## Summaries -/

/-- What stands before the items of a summary. -/
def ResultSummary.head (count : Nat) : String :=
  "\x7b" ++ Json.newLine 1 ++ Json.encodeText "count" ++ ": " ++ toString count ++ "," ++
    Json.newLine 1 ++ Json.encodeText "items" ++ ": "

theorem ResultSummary.toList_render (count : Nat) (items : List String) :
    (ResultSummary.mk count items).render.toList =
      (head count).toList ++
        ((Json.writeAt 1 (.array (items.map .text))).toList ++ (Json.newLine 0 ++ "\x7d").toList) := by
  simp [render, head, Json.pretty, Json.writeAt, Json.writeMembers]

/-- The items of a summary can be read back from it. -/
theorem ResultSummary.render_inj {count : Nat} {first second : List String} :
    (ResultSummary.mk count first).render = (ResultSummary.mk count second).render ↔
      first = second := by
  constructor
  · intro same
    rw [← String.toList_inj, toList_render, toList_render] at same
    exact (Json.writeAt_array_append_inj 1 (List.append_cancel_left same)).1
  · rintro rfl
    rfl

/-! ## Renderings -/

namespace Rendering

variable {Home : Type}

/-- The rendering of a sequence of nodes that keeps every item as it is serialized. -/
def exact (rendering : Rendering) (view : View Home) (nodes : List (Node Home)) : String :=
  match rendering.format with
  | .text =>
      withoutLineEnd (Node.serialize view ⟨rendering.verbose, !rendering.compact⟩ nodes)
  | .json =>
      ResultSummary.render ⟨nodes.length,
        nodes.map fun node => withoutLineEnd (Node.serialize view ⟨false, false⟩ [node])⟩

/-- That a sequence of nodes has none of the texts that a rendering changes: a line feed behind a
carriage return in text, a blank at the end of an item in a summary. -/
def LosesNothing (rendering : Rendering) (view : View Home) (nodes : List (Node Home)) : Prop :=
  match rendering.format with
  | .text =>
      ¬['\r', '\n'] <:+:
        (Node.serialize view ⟨rendering.verbose, !rendering.compact⟩ nodes).toList
  | .json => ∀ node ∈ nodes,
      endsInBlank (withoutLineEnd (Node.serialize view ⟨false, false⟩ [node])) = false

/-- **A rendering is exact exactly if it meets no text that it changes.** -/
theorem render_eq_exact_iff (rendering : Rendering) (view : View Home) (nodes : List (Node Home)) :
    rendering.render view nodes = rendering.exact view nodes ↔
      rendering.LosesNothing view nodes := by
  obtain ⟨verbose, compact, format⟩ := rendering
  cases format with
  | text =>
      rw [render, exact, LosesNothing, joinLines, ← String.toList_inj,
        Text.toList_intercalate_lines, withoutLineEnd, String.toList_ofList]
      exact Text.dropLineEnd_plainLineEnds_eq_iff _
  | json =>
      rw [render, exact, LosesNothing, ResultSummary.ofNodes, ResultSummary.render_inj,
        List.map_inj_left]
      refine forall₂_congr fun node _ => ?_
      rw [Node.serialize_single, Text.dropTrailingBlanks_append_lineFeed,
        Text.withoutLineEnd_append_lineFeed]
      exact Text.dropTrailingBlanks_eq_iff _

/-- A document with one element that holds a text. -/
def holding (text : String) : View Unit := fun _ =>
  Arena.ofFragments [.element "t" [] [.text text]]

/-- Text drops a carriage return inside an element, and a summary drops the blank that a text
ends in. -/
theorem render_ne_exact :
    render ⟨false, false, .text⟩ (holding "a\r\nb") [⟨(), 1⟩] ≠
        exact ⟨false, false, .text⟩ (holding "a\r\nb") [⟨(), 1⟩] ∧
      render ⟨false, false, .json⟩ (holding "pad ") [⟨(), 2⟩] ≠
        exact ⟨false, false, .json⟩ (holding "pad ") [⟨(), 2⟩] := by
  decide +kernel

/-- Summaries of elements and attributes are exact. -/
theorem losesNothing_of_kinds {rendering : Rendering} {view : View Home}
    (formed : view.WellFormed) (isJson : rendering.format = .json) {nodes : List (Node Home)}
    (kinds : ∀ node ∈ nodes, node.kind view = .element ∨ node.kind view = .attribute) :
    rendering.LosesNothing view nodes := by
  rw [LosesNothing, isJson]
  intro node member
  rw [Node.serialize_single, Text.withoutLineEnd_append_lineFeed]
  exact Node.endsInBlank_compactItem view formed (kinds node member)

end Rendering

end TreeQuery.CommandLine
