import SnippetAudit.GraphQL.Parser.Value

/-!
# Parsing operations and fragments

An operation may be written as its selections alone, and then is a query. A set of selections may be empty.

## What this module delivers

- `selectionSet`: a set of selections;
- `operation`, `fragment`: the executable definitions.
-/

set_option autoImplicit false

namespace SnippetAudit.GraphQL.Parser

/-- The name of a fragment, which is any name but `on`. -/
def fragmentName : Parser String := do
  if (← current).any fun t => t.value == "on" then unexpected else name

/-- Selections in braces with their place; each is parsed by `item`. The parser that is followed accepts braces without
any selections as well. -/
def setOf (item : Parser Selection) : Parser SelectionSet := do
  let place := (← get).length
  return ⟨place, ← any .openBrace item .closeBrace⟩

/-- A field; `set` parses its selections. -/
def fieldSelection (set : Parser SelectionSet) : Parser Selection := do
  let first ← name
  let alias? ← if ← accept .colon then pure (some first) else pure none
  let fieldName ← if alias?.isSome then name else pure first
  let given ← arguments false
  let head : FieldHead := ⟨alias?, fieldName, given, ← directives false⟩
  if ← isAt .openBrace then
    let inner ← set
    return .branch head inner.place inner.selections
  else return .leaf head

/-- A spread fragment, or selections in place; `set` parses these. -/
def fragmentSelection (set : Parser SelectionSet) : Parser Selection := do
  let _ ← expect .spread
  let conditional ← acceptKeyword "on"
  if !conditional && (← isAt .name) then
    let spreadName ← fragmentName
    return .spread spreadName (← directives false)
  else
    let condition ← if conditional then some <$> name else pure none
    let given ← directives false
    let inner ← set
    return .inline condition given inner.place inner.selections

/-- A selection, nested less deeply than `fuel`. -/
def selectionWithin : Nat → Parser Selection
  | 0 => unexpected
  | fuel + 1 => do
    if ← isAt .spread then fragmentSelection (setOf (selectionWithin fuel))
    else fieldSelection (setOf (selectionWithin fuel))

/-- A set of selections. -/
def selectionSet : Parser SelectionSet := do setOf (selectionWithin (← budget))

/-- The definition of a variable. -/
def variableDefinition : Parser VariableDefinition := do
  description
  let definedName ← variableName
  let _ ← expect .colon
  let type ← typeRef
  let default ← if ← accept .equals then some <$> literal true else pure none
  return ⟨definedName, type, default, ← directives true⟩

/-- The kind of an operation. -/
def operationKind : Parser OperationKind := do
  let before ← get
  let word ← expect .name
  match OperationKind.ofName? word with
  | some kind => return kind
  | none => throw ⟨before.start, .unexpected before.head?⟩

/-- An operation. -/
def operation : Parser Operation := do
  if ← isAt .openBrace then return ⟨.query, none, [], [], ← selectionSet⟩
  description
  let kind ← operationKind
  let operationName ← if ← isAt .name then some <$> name else pure none
  let parameters ← optionalMany .openParen variableDefinition .closeParen
  let given ← directives false
  return ⟨kind, operationName, parameters, given, ← selectionSet⟩

/-- A fragment. -/
def fragment : Parser Fragment := do
  description
  expectKeyword "fragment"
  let definedName ← fragmentName
  expectKeyword "on"
  let condition ← name
  let given ← directives false
  return ⟨definedName, condition, given, ← selectionSet⟩

end SnippetAudit.GraphQL.Parser
