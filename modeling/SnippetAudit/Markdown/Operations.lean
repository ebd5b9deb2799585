import SnippetAudit.Extraction.Extract
import SnippetAudit.Markdown.FencedBlock

/-!
# GraphQL operations in markdown

Operations are looked for in two tiers: in the fenced blocks whose language is GraphQL, or, where there
is none, in the blocks that look like an operation. A text without any block is one operation itself,
whatever it looks like.

## What this module delivers

- `looksLikeOperation`: a text starts with a keyword of a definition or with a brace;
- `findOperations`: the cleaned operations of a text, never empty ones.
-/

set_option autoImplicit false

namespace SnippetAudit.Markdown

open Text Extraction

/-- The language tags of GraphQL blocks. -/
def graphqlTags : List Text := ["graphql".toList, "gql".toList]

/-- The keywords with which an operation or a fragment definition starts. -/
def operationKeywords : List Text :=
  ["query".toList, "mutation".toList, "subscription".toList, "fragment".toList]

/-- The text starts with a keyword of its own or with a brace. -/
def startsOperation (t : Text) : Bool :=
  t.head? == some '\x7b' ||
    operationKeywords.any fun keyword => ((skipKeyword? keyword t).map endsWord).getD false

/-- The text starts like an operation, comments and blanks apart. -/
def looksLikeOperation (t : Text) : Bool :=
  startsOperation (Text.trim (stripHashComments (Text.trim t)))

/-- The texts that may be operations: tagged blocks, else blocks that look like operations, else the
whole text if it has no block. -/
def operationCandidates (t : Text) : List Text :=
  let blocks := fencedBlocks t
  let tagged := blocks.filter fun b => graphqlTags.contains b.language
  let alike := blocks.filter fun b => looksLikeOperation b.body
  if !tagged.isEmpty then tagged.map (·.body)
  else if !alike.isEmpty then alike.map (·.body)
  else if blocks.isEmpty then [t]
  else []

/-- The operations of a text, cleaned, in order; what cleaning leaves empty is dropped. -/
def findOperations (t : Text) : List Text :=
  ((operationCandidates t).map (extract graphqlClean)).filter (!·.isEmpty)

end SnippetAudit.Markdown
