import TreeQuery.Proofs.Grammar.Queries
import TreeQuery.Proofs.Query.Layouts

/-!
# Reading whole printed texts

Every text that is laid out from the tokens of a printable query is read as the query with its
parentheses explicit, and so are both printed forms of the query.  The same holds of document
paths.
-/

set_option autoImplicit false

namespace TreeQuery

open TreeQuery.Grammar.Parser TreeQuery.Grammar

theorem Grammar.LaidOut.length_le {tokens : List String} {text : String}
    (laidOut : LaidOut tokens text) : tokens.length ≤ text.length := by
  have skipped : (Parser.skip text.toList).length ≤ text.toList.length :=
    (List.dropWhile_sublist _).length_le
  rw [String.length_toList] at skipped
  exact Nat.le_trans (Layout.length_le laidOut) skipped

/-- What is read between separators is read as a whole text. -/
theorem Grammar.Parser.Reads.whole {α : Type} {name : Rule} {parser : Parser α} {value : α}
    {text rest : List Char} (reads : parser.Reads (skip text) value rest) (ends : skip rest = []) :
    (Parser.whole name parser).Reads text value [] := by
  have ending := reads_blanks rest
  rw [ends] at ending
  exact ((reads_blanks text).bind
    (reads.bind (ending.bind (reads_endOfInput.bind (f := fun _ => Pure.pure value) .pure)))).rule

/-- What reads a text without noting a clash comes to the value that it reads. -/
theorem Grammar.Parser.Reads.run {α : Type} {parser : Parser α} {value : α} {text : String}
    {rest : List Char} (reads : parser.Reads text.toList value rest) :
    parser.run text = .ok value := by
  obtain ⟨later, tried, run⟩ := reads false 0 none Attempts.none
  rw [Parser.run, Cursor.start, run]

/-- A parser that takes all tokens of a text reads the whole text. -/
theorem run_whole {α : Type} {name : Rule} {parser : Parser α} {tokens : List String} {value : α}
    {text : String} (takes : Takes parser tokens value []) (laidOut : LaidOut tokens text) :
    (Parser.whole name parser).run text = .ok value := by
  obtain ⟨rest, layout, reads⟩ := takes text.toList laidOut
  exact (reads.whole layout.skip_nil).run

theorem endsPath_nil : EndsPath [] := .of_lead (by simp)

theorem Query.parse_of_laidOut {query : Query} (printable : query.isPrintable = true)
    {text : String} (laidOut : LaidOut query.tokens text) :
    Query.parse text = .ok query.explicit := by
  have takes := (query.readable printable text.length laidOut.length_le (Nat.le_refl _)).takes
    endsPath_nil (by simp)
  rw [List.append_nil] at takes
  exact run_whole takes laidOut

theorem DocumentPath.parse_of_laidOut {path : DocumentPath} (printable : path.isPrintable = true)
    {text : String} (laidOut : LaidOut path.tokens text) :
    DocumentPath.parse text = .ok path.explicit := by
  have parts := printable
  rw [DocumentPath.isPrintable, Bool.and_eq_true] at parts
  have room : (path.path.operand 1).tokens.length ≤ text.length := by
    have size := laidOut.length_le
    rw [DocumentPath.tokens] at size
    simp only [List.length_cons] at size
    omega
  have steps := ((path.path.readable parts.2).operand (path.path.opensPath parts.2) 1 text.length
    room).takes endsPath_nil
  have takes := Query.takes_documentPath printable steps
  rw [List.append_nil] at takes
  exact run_whole takes laidOut

end TreeQuery
