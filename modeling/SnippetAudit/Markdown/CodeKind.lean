import SnippetAudit.Markdown.Operations

/-!
# Kinds of code

Snippets are submitted as one of five kinds. The kind decides which fenced blocks of a markdown text are
snippets: those tagged with one of its languages, and for component markup also those with no tag.

## What this module delivers

- `CodeKind`, its names and `CodeKind.ofName`;
- `CodeKind.tags`: the fence tags of a kind;
- `findBlocks`: the snippets of a kind in a text.
-/

set_option autoImplicit false

namespace SnippetAudit

/-- What kind of code snippets hold. -/
inductive CodeKind where
  | javascript
  | typescript
  | rust
  | graphql
  | components
  deriving Repr, DecidableEq, Inhabited

/-- No kind has this name. -/
structure UnknownKind where
  name : String
  deriving Repr, DecidableEq

/-- The wording of the error. -/
def UnknownKind.message (e : UnknownKind) : String := "'" ++ e.name ++ "' is not a valid CodeKind"

namespace CodeKind

/-- The name of a kind. -/
def name : CodeKind → String
  | .javascript => "javascript"
  | .typescript => "typescript"
  | .rust => "rust"
  | .graphql => "graphql"
  | .components => "components"

/-- All kinds. -/
def all : List CodeKind := [.javascript, .typescript, .rust, .graphql, .components]

/-- The kind of a name. -/
def ofName (name : String) : Except UnknownKind CodeKind :=
  match all.find? fun kind => kind.name == name with
  | some kind => .ok kind
  | none => .error ⟨name⟩

theorem ofName_name (kind : CodeKind) : ofName kind.name = .ok kind := by
  cases kind <;> rfl

/-- The fence tags of a kind. -/
def tags : CodeKind → List String
  | .javascript => ["javascript", "js", "jsx", "mjs", "cjs"]
  | .typescript => ["typescript", "ts"]
  | .rust => ["rust", "rs"]
  | .graphql => ["graphql", "gql"]
  | .components => ["tsx", "jsx", "html", "typescript", "ts", "javascript", "js"]

end CodeKind

namespace Markdown

open Text

/-- The snippets of a kind in a text, in order; blocks with nothing but blanks are none. -/
def findBlocks (kind : CodeKind) (t : Text) : List Text :=
  match kind with
  | .graphql => findOperations t
  | kind =>
    ((findFencedBlocks (some (kind.tags.map String.toList)) (kind == .components) t).map (·.body)).filter
      fun body => !(Text.trim body).isEmpty

end Markdown

end SnippetAudit
