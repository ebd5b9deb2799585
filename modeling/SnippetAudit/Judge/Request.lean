import SnippetAudit.Data.Value

/-!
# The shape of requests

What is submitted may have any shape. Before anything else a request is checked: a text that must not be
empty, an optional name. Every shape that does not fit is an issue with the place it
was found at.

## What this module delivers

- `Issue` and `describeIssues`: what does not fit, in words;
- `nonEmptyText`, `optionalName`: the shapes of single fields;
- `issueOf`: the issues that a field adds to its request.
-/

set_option autoImplicit false

namespace SnippetAudit.Judge

/-- Something that does not fit, and the field it was found in; a fault of the whole request has no
field. -/
structure Issue where
  field : Option String
  message : String
  deriving Repr, DecidableEq

/-- An issue in words. -/
def Issue.text (i : Issue) : String :=
  match i.field with
  | some field => field ++ ": " ++ i.message
  | none => i.message

/-- The explanation of a request that does not fit. -/
def describeIssues (issues : List Issue) : String :=
  "Invalid input: " ++ ", ".intercalate (issues.map Issue.text)

/-- A field read: its value, or the issue found in it. -/
abbrev Field (α : Type) := Except Issue α

/-- A text that must not be empty. -/
def nonEmptyText (field : String) : Value → Field String
  | .str s => if s = "" then .error ⟨field, "String should have at least 1 character"⟩ else .ok s
  | _ => .error ⟨field, "Input should be a valid string"⟩

/-- A name that may be left out; a name that is given must not be empty. -/
def optionalName (field : String) : Value → Field (Option String)
  | .null => .ok none
  | v => (nonEmptyText field v).map some

/-- The issue of a field, if it has one. -/
def issueOf {α : Type} : Field α → List Issue
  | .ok _ => []
  | .error issue => [issue]

end SnippetAudit.Judge
