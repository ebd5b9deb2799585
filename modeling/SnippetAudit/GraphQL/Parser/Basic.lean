import SnippetAudit.GraphQL.Token

/-!
# Parsers

A parser takes tokens from the front and gives a result, or explains why it cannot. It looks at one token
at a time; taking a token demands that the text can be read up to the token after it.

## What this module delivers

- `Parser`, `current`, `advance`: what a parser is and the two things that it does;
- `accept`, `expect`, `acceptKeyword`, `expectKeyword`: tokens that may or must come;
- `itemsUntil`, `any`, `many`, `optionalMany`, `separated`: lists.
-/

set_option autoImplicit false

namespace SnippetAudit.GraphQL

/-- A parser takes tokens from the front. -/
abbrev Parser (α : Type) := StateT Tokens (Except SyntaxError) α

namespace Parser

variable {α : Type}

/-- The next token; none at the end. -/
def current : Parser (Option Token) := do return (← get).head?

/-- Gives up at the next token. -/
def refuse (fault : Option Token → SyntaxFault) : Parser α := do
  let tokens ← get
  throw ⟨tokens.start, fault tokens.head?⟩

/-- Gives up because the next token does not fit. -/
def unexpected : Parser α := refuse .unexpected

/-- Takes the next token; what comes then must be readable. -/
def advance : Parser Unit := do
  match ← get with
  | .next _ (.fault e) => throw e
  | .next _ rest => set rest
  | _ => return ()

/-- The next token is of a kind. -/
def isAt (kind : TokenKind) : Parser Bool := do
  return (← current).any fun t => t.kind == kind

/-- Takes the next token if it is of a kind. -/
def accept (kind : TokenKind) : Parser Bool := do
  if ← isAt kind then
    advance
    return true
  else return false

/-- Takes the next token, which must be of a kind, and gives its value. -/
def expect (kind : TokenKind) : Parser String := do
  match ← current with
  | some t =>
    if t.kind == kind then
      advance
      return t.value
    else refuse (.expectedKind kind)
  | none => refuse (.expectedKind kind)

/-- The token is a keyword. -/
def isKeyword (keyword : String) (t : Token) : Bool := t.kind == .name && t.value == keyword

/-- Takes the next token if it is a keyword. -/
def acceptKeyword (keyword : String) : Parser Bool := do
  if (← current).any (isKeyword keyword) then
    advance
    return true
  else return false

/-- Takes the next token, which must be a keyword. -/
def expectKeyword (keyword : String) : Parser Unit := do
  if !(← acceptKeyword keyword) then refuse (.expectedKeyword keyword)

/-- A name. -/
def name : Parser String := expect .name

/-- One more than the number of tokens: no list is longer, and nothing is nested more deeply. -/
def budget : Parser Nat := do return (← get).length + 1

/-- Items up to a closing token, which is taken; at most as many as `fuel`. -/
def itemsUntil (close : TokenKind) (item : Parser α) : Nat → Parser (List α)
  | 0 => unexpected
  | fuel + 1 => do
    if ← accept close then return []
    let first ← item
    return first :: (← itemsUntil close item fuel)

/-- Items between two tokens. -/
def any (opening : TokenKind) (item : Parser α) (close : TokenKind) : Parser (List α) := do
  let _ ← expect opening
  itemsUntil close item (← budget)

/-- Items between two tokens, of which there must be one. -/
def many (opening : TokenKind) (item : Parser α) (close : TokenKind) : Parser (List α) := do
  let _ ← expect opening
  let first ← item
  return first :: (← itemsUntil close item (← budget))

/-- Nothing, or items between two tokens, of which there must be one. -/
def optionalMany (opening : TokenKind) (item : Parser α) (close : TokenKind) : Parser (List α) := do
  if ← isAt opening then many opening item close else return []

/-- Items with a token between each two; at most as many as `fuel`. -/
def separatedItems (separator : TokenKind) (item : Parser α) : Nat → Parser (List α)
  | 0 => unexpected
  | fuel + 1 => do
    let first ← item
    if ← accept separator then return first :: (← separatedItems separator item fuel)
    else return [first]

/-- Items with a token between each two, which may also stand in front. -/
def separated (separator : TokenKind) (item : Parser α) : Parser (List α) := do
  let _ ← accept separator
  separatedItems separator item (← budget)

end Parser

end SnippetAudit.GraphQL
