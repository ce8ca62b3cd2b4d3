import TreeQuery.Proofs.Document.Forest
import TreeQuery.Proofs.Lists
import TreeQuery.Proofs.Query.Evaluation

/-!
# Shelves of tables

What is found on the shelf of a table is a document that has been read from a text or a document
of the collection (`Collection.of_found_on_shelf`), and names fail on it for one of two reasons
(`Collection.of_missing_on_shelf`).  So over the documents of a program, whatever it has created,
a shelf has only documents that can come about (`Collection.Reachable.shelf`).
-/

set_option autoImplicit false

namespace TreeQuery.Collection

variable (collection : Collection) (table : List (String × Holding)) (name : String)

/-- What a table has under a name is found on its shelf. -/
theorem library_shelf : (collection.shelf table).library name =
    ((table.lookup name).map (·.find collection name)).getD
      (.error (.unavailable name .unknown)) := by
  rw [Shelf.library, shelf]
  dsimp only
  rw [lookup_map_named table fun name holding => holding.find collection name]
  cases table.lookup name <;> rfl

variable {collection table name}

/-- What holds of the documents that are read and of those of a collection holds of whatever is
found on a shelf. -/
@[elab_as_elim]
theorem of_found_on_shelf {Holds : Arena → Prop}
    (read : ∀ fragments, Holds (.ofFragments fragments))
    (created : ∀ document ∈ collection.documents, Holds document.arena) {arena : Arena}
    (found : (collection.shelf table).library name = .ok arena) : Holds arena := by
  rw [library_shelf] at found
  cases held : table.lookup name with
  | none =>
      rw [held] at found
      cases found
  | some holding =>
      rw [held, Option.map_some, Option.getD_some] at found
      cases holding with
      | text content =>
          rw [Holding.find, Arena.load] at found
          split at found
          · exact Except.ok.inj found ▸ read _
          · cases found
      | document number =>
          rw [← Except.ok.inj found, view]
          split
          · exact created _ (List.mem_of_getElem? ‹_›)
          · exact read []

/-- Names of a shelf fail because they are unknown or their texts are malformed. -/
@[elab_as_elim]
theorem of_missing_on_shelf {Holds : Failure → Prop}
    (unknown : ∀ name, Holds (.unavailable name .unknown))
    (malformed : ∀ name fault, Holds (.malformed name fault)) {failure : Failure}
    (failed : (collection.shelf table).library name = .error failure) : Holds failure := by
  rw [library_shelf] at failed
  cases held : table.lookup name with
  | none =>
      rw [held] at failed
      exact Except.error.inj failed ▸ unknown name
  | some holding =>
      rw [held, Option.map_some, Option.getD_some] at failed
      cases holding with
      | text content =>
          rw [Holding.find, Arena.load] at failed
          split at failed
          · cases failed
          · exact Except.error.inj failed ▸ malformed name _
      | document number => cases failed

/-- What is found on a shelf can come about, because it comes from a text or from a program. -/
theorem Reachable.shelf (reachable : collection.Reachable) (table : List (String × Holding)) :
    (collection.shelf table).library.Reachable :=
  fun _ _ => of_found_on_shelf .ofFragments reachable

end TreeQuery.Collection
