import SnippetAudit.Files.Tree

/-!
# Access to files

What is asked of files is their octets, and the names in a directory. A file tree answers both; so may
anything else.

## What this module delivers

- `Access`: what paths lead to;
- `Entry.access`: the answers of a file tree.
-/

set_option autoImplicit false

namespace SnippetAudit.Files

/-- What paths lead to. -/
structure Access where
  /-- The octets of a file. -/
  read : Path → Except AccessError Octets
  /-- The names in a directory; there are none where there is no directory. -/
  names : Path → List Name

/-- The names in the directory that a path leads to. -/
def Entry.names (root : Entry) (path : Path) : List Name :=
  match root.find path with
  | .ok entry => entry.entries.map Prod.fst
  | .error _ => []

/-- The answers of a file tree. -/
def Entry.access (root : Entry) : Access := ⟨root.read, root.names⟩

end SnippetAudit.Files
