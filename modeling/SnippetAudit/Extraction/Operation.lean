import SnippetAudit.Extraction.Comment
import SnippetAudit.Text.Word

/-!
# Normalising GraphQL operations

For comparing the shape of operations, three things are taken out of their text: directives, fragment
definitions with the spreads that name them, and variables with the arguments bound to them. Inline
fragments stay.

## What this module delivers

- `directive`, `fragmentDefinition`, `namedSpread`: what is removed, as patterns;
- `variableDefinitions`, `variableArgument`, `variableReference`, `emptyArguments`: likewise for variables;
- `stripDirectives`, `stripFragments`, `stripVariables`.
-/

set_option autoImplicit false

namespace SnippetAudit.Extraction

open Text

/-- The length of `t` without its end `rest`. -/
def lengthBefore (t rest : Text) : Nat := t.length - rest.length

/-- The text behind one character of a kind. -/
def skipChar? (c : Char) : Text → Option Text
  | [] => none
  | d :: rest => if d = c then some rest else none

/-- The text behind leading characters of a class, of which there is at least one. -/
def skipSome? (p : Char → Bool) (t : Text) : Option Text :=
  match t with
  | [] => none
  | c :: _ => if p c then some (t.dropWhile p) else none

/-- The text behind a keyword. -/
def skipKeyword? (keyword : Text) (t : Text) : Option Text :=
  if keyword.isPrefixOf t then some (t.drop keyword.length) else none

/-- The text behind blanks, of which there may be none. -/
def skipBlanks (t : Text) : Text := t.dropWhile isBlank

/-- The pattern that matches up to the end of what `skip` skips. -/
def skipping (skip : Text → Option Text) : Pattern := fun _ t =>
  match skip t with
  | some rest => lengthBefore t rest
  | none => 0

/-- Blanks and a directive behind them, with its arguments up to the next closing bracket. -/
def directive : Pattern := skipping fun t => do
  let mark ← skipSome? isBlank t
  let name ← skipChar? '@' mark
  let rest ← skipSome? isWord name
  -- brackets that are not closed are no arguments and stay
  some (((skipChar? '(' rest).bind (afterFirst? ")".toList)).getD rest)

/-- The text without directives. -/
def stripDirectives (t : Text) : Text := tidy 0 t (erase directive t)

/-- The text behind a body whose opening brace was read, `depth` braces being open; an unbalanced body
goes to the end of the text. -/
def skipBody : Nat → Text → Text
  | 0, t => t
  | _ + 1, [] => []
  | depth + 1, c :: rest =>
    if c = '\x7b' then skipBody (depth + 2) rest
    else if c = '\x7d' then skipBody depth rest
    else skipBody (depth + 1) rest

/-- The text behind the head of a fragment definition and its opening brace. -/
def skipFragmentHead? (t : Text) : Option Text := do
  let name ← skipSome? isBlank (← skipKeyword? "fragment".toList t)
  let on ← skipSome? isBlank (← skipSome? isWord name)
  let condition ← skipSome? isBlank (← skipKeyword? "on".toList on)
  let rest ← skipSome? isWord condition
  afterFirst? "\x7b".toList rest

/-- A fragment definition: its head, and its body up to the brace that closes it. -/
def fragmentDefinition : Pattern := fun before t =>
  if startsAtBoundary before then
    skipping (fun t => (skipFragmentHead? t).map (skipBody 1)) before t
  else 0

/-- A spread that names a fragment; a spread with a type condition is none. -/
def namedSpread : Pattern := skipping fun t => do
  let rest ← skipKeyword? "...".toList t
  let name := skipBlanks rest
  match skipKeyword? "on".toList name with
  -- a name that only starts with the keyword is a name
  | some behind => if endsWord behind then none else skipSome? isWord name
  | none => skipSome? isWord name

/-- Removes the first fragment definition again and again until there is none; each removal deletes at
least one character, so as many rounds as there are characters suffice. -/
def eraseFragments : Nat → Text → Text
  | 0, t => t
  | fuel + 1, t =>
    match eraseFirst? fragmentDefinition t with
    | some rest => eraseFragments fuel rest
    | none => t

/-- The text without fragment definitions and the spreads that name fragments. -/
def stripFragments (t : Text) : Text :=
  tidy 0 t (erase namedSpread (eraseFragments t.length t))

/-- A bracket that opens with a variable, up to the next closing bracket. -/
def variableDefinitions : Pattern := skipping fun t => do
  let rest ← skipChar? '$' (skipBlanks (← skipChar? '(' t))
  afterFirst? ")".toList rest

/-- A variable: its sign and its name. -/
def skipVariable? (t : Text) : Option Text := do
  skipSome? isWord (← skipChar? '$' t)

/-- A named argument bound to a variable, with a comma behind it. -/
def variableArgument : Pattern := skipping fun t => do
  let name ← skipSome? isWord t
  let value ← skipChar? ':' (skipBlanks name)
  let rest := skipBlanks (← skipVariable? (skipBlanks value))
  some ((skipChar? ',' rest).getD rest)

/-- A variable. -/
def variableReference : Pattern := skipping skipVariable?

/-- Brackets with nothing but blanks between them. -/
def emptyArguments : Pattern := skipping fun t => do
  skipChar? ')' (skipBlanks (← skipChar? '(' t))

/-- The text without variable definitions, arguments bound to variables, other variables, and the
argument lists that this leaves empty. -/
def stripVariables (t : Text) : Text :=
  tidy 0 t <| erase emptyArguments <| erase variableReference <| erase variableArgument <|
    erase variableDefinitions t

end SnippetAudit.Extraction
