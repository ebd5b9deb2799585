import SnippetAudit.Catalogue.Basic
import SnippetAudit.Data.Sorted

/-!
# Catalogues of given documents

Documents that are given by name make a catalogue that lists all their names in order.

## What this module delivers

- `Catalogue.ofDocuments`: the catalogue of given documents;
- `Catalogue.empty`: the catalogue without any.
-/

set_option autoImplicit false

namespace SnippetAudit.Catalogue

/-- The catalogue of documents that are given by name. -/
def ofDocuments (documents : Members Value) : Catalogue where
  supported := Sorted.sortStrings documents.names
  load name :=
    match documents.get? name with
    | some document => describing document
    | none => .error (.unsupported name)

/-- The catalogue without documents. -/
def empty : Catalogue := ofDocuments []

end SnippetAudit.Catalogue
