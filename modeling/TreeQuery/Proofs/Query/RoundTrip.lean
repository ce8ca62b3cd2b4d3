import TreeQuery.Proofs.Grammar.Image
import TreeQuery.Proofs.Grammar.Whole
import TreeQuery.Proofs.Query.Parentheses

/-!
# Printing and reading back

Both printed forms of a printable query are read as the query with its parentheses explicit, and
so is a printed document path.  Reading a printed text gives back, up to parentheses, what was
printed, and everything that reading returns can be printed and read again.
-/

set_option autoImplicit false

namespace TreeQuery

section

variable {query : Query} (printable : query.isPrintable = true)

include printable

theorem Query.parse_pretty : Query.parse query.pretty = .ok query.explicit :=
  parse_of_laidOut printable (query.laidOut_pretty printable)

theorem Query.parse_inline : Query.parse query.inline = .ok query.explicit :=
  parse_of_laidOut printable (query.laidOut_inline printable)

end

theorem DocumentPath.parse_print {path : DocumentPath} (printable : path.isPrintable = true) :
    DocumentPath.parse path.print = .ok path.explicit :=
  parse_of_laidOut printable (DocumentPath.laidOut printable)

/-- Reading undoes printing up to parentheses, in the same way for both forms of a query, and
whatever is read is printable. -/
theorem parsing_undoes_printing :
    (∀ query : Query, query.isPrintable = true → ∃ parsed,
      Query.parse query.pretty = .ok parsed ∧ Query.parse query.inline = .ok parsed ∧
        parsed.skeleton = query.skeleton) ∧
    (∀ path : DocumentPath, path.isPrintable = true → ∃ parsed,
      DocumentPath.parse path.print = .ok parsed ∧ parsed.skeleton = path.skeleton) ∧
    (∀ (text : String) (query : Query), Query.parse text = .ok query → query.isPrintable = true) ∧
    ∀ (text : String) (path : DocumentPath), DocumentPath.parse text = .ok path →
      path.isPrintable = true := by
  refine ⟨fun query printable => ?_, fun path printable => ?_,
    fun _ _ parsed => Query.isPrintable_of_parse parsed,
    fun _ _ parsed => DocumentPath.isPrintable_of_parse parsed⟩
  · exact ⟨query.explicit, Query.parse_pretty printable, Query.parse_inline printable,
      query.skeleton_explicit⟩
  · exact ⟨path.explicit, DocumentPath.parse_print printable, path.skeleton_explicit⟩

/-- A `for` before a comma is printed in parentheses, as is a comma in a filter; reading them
back erases nothing else. -/
theorem parsing_undoes_printing_openPair :
    let query : Query := .pair (.flwr [⟨"x", .document ⟨"f", .child, .tag "a"⟩⟩] [] none
      (.reference "x")) (.constant "c")
    let path : DocumentPath :=
      ⟨"f", .child, .filtered (.tag "a") (.path (.pair (.tag "b") (.tag "c")))⟩
    let read : DocumentPath := ⟨"f", .child, .tag "a"⟩
    (query.isPrintable = true ∧ ∃ parsed, Query.parse query.pretty = .ok parsed ∧
      Query.parse query.inline = .ok parsed ∧ parsed.skeleton = query.skeleton) ∧
    (path.isPrintable = true ∧ ∃ parsed, DocumentPath.parse path.print = .ok parsed ∧
      parsed.skeleton = path.skeleton) ∧
    (Query.parse "$x" = .ok (.reference "x") ∧ (Query.reference "x").isPrintable = true) ∧
    DocumentPath.parse "doc(\"f\")/a" = .ok read ∧ read.isPrintable = true := by
  intro query path read
  obtain ⟨queries, paths, parsedQueries, parsedPaths⟩ := parsing_undoes_printing
  have parsedQuery : Query.parse "$x" = .ok (.reference "x") := by decide +kernel
  have parsedPath : DocumentPath.parse "doc(\"f\")/a" = .ok read := by decide +kernel
  have printableQuery : query.isPrintable = true := by decide
  have printablePath : path.isPrintable = true := by decide
  exact ⟨⟨printableQuery, queries query printableQuery⟩, ⟨printablePath, paths path printablePath⟩,
    ⟨parsedQuery, parsedQueries _ _ parsedQuery⟩, parsedPath, parsedPaths _ _ parsedPath⟩

end TreeQuery
