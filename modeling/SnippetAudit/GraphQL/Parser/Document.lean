import SnippetAudit.GraphQL.Lexer
import SnippetAudit.GraphQL.Parser.Executable
import SnippetAudit.GraphQL.Parser.TypeSystem

/-!
# Parsing documents

A document is one definition after the other up to the end of the text, and holds one at least.

## What this module delivers

- `definition`: the parser of a definition, chosen by its keyword;
- `parse`: the document of a text, or the first error.
-/

set_option autoImplicit false

namespace SnippetAudit.GraphQL

namespace Parser

/-- The token that tells the kind of a definition: the first one, or the one behind a description. -/
def keywordToken (described : Bool) : Parser (Option Token) := do
  match described, ← get with
  | true, .next _ (.fault e) => throw e
  | true, .next _ rest => return rest.head?
  | _, tokens => return tokens.head?

/-- The place of the token that tells the kind of a definition. -/
def keywordStart (described : Bool) : Parser Nat := do
  match described, ← get with
  | true, .next _ rest => return rest.start
  | _, tokens => return tokens.start

/-- The parser of a definition with a keyword. -/
def keywordDefinition (described : Bool) (t : Token) : Parser Definition := do
  match declaration? t.value with
  | some declaration => declaration
  | none =>
    if (OperationKind.ofName? t.value).isSome then return .operation (← operation)
    else if t.value = "fragment" then return .fragment (← fragment)
    else if described then throw ⟨(← get).start, .misplacedDescription⟩
    else if t.value = "extend" then extensionDefinition
    else unexpected

/-- A definition. -/
def definition : Parser Definition := do
  if ← isAt .openBrace then return .operation (← operation)
  let described ← isAtDescription
  let keyword ← keywordToken described
  match keyword with
  | some t =>
    if described && t.kind == .openBrace then
      throw ⟨(← get).start, .descriptionOnShorthand⟩
    else if t.kind == .name then keywordDefinition described t
    else throw ⟨t.start, .unexpected keyword⟩
  | none => throw ⟨← keywordStart described, .unexpected none⟩

/-- Definitions up to the end, at most as many as `fuel`. -/
def definitions : Nat → Parser (List Definition)
  | 0 => unexpected
  | fuel + 1 => do
    let first ← definition
    match ← current with
    | some _ => return first :: (← definitions fuel)
    | none => return [first]

end Parser

/-- The document of tokens. -/
def parseTokens (ts : Tokens) : Except SyntaxError Document :=
  match ts with
  | .fault e => .error e
  | _ => (Parser.definitions (ts.length + 1)).run' ts

/-- The document of a text. -/
def parse (t : Text) : Except SyntaxError Document := parseTokens (tokens t)

end SnippetAudit.GraphQL
