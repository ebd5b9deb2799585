import SnippetAudit.GraphQL.Document
import SnippetAudit.GraphQL.Parser.Basic

/-!
# Parsing values, types and directives

Values, types and directives appear in executable definitions and in the type system. In constants no
variable may appear.

## What this module delivers

- `literal`, `typeRef`, `arguments`, `directives`: their parsers;
- `description`: the description in front of a definition, which is passed over.
-/

set_option autoImplicit false

namespace SnippetAudit.GraphQL.Parser

/-- A variable. -/
def variableName : Parser String := do
  let _ ← expect .dollar
  name

/-- A variable where only constants may stand. -/
def refuseVariable : Parser Literal := do
  let sign ← get
  let _ ← expect .dollar
  match ← current with
  | some t =>
    if t.kind == .name then throw ⟨sign.start, .variableInConstant t.value⟩
    else throw ⟨sign.start, .unexpected sign.head?⟩
  | none => throw ⟨sign.start, .unexpected sign.head?⟩

/-- The value that a name stands for. -/
def namedLiteral : String → Literal
  | "true" => .bool true
  | "false" => .bool false
  | "null" => .null
  | other => .enum other

/-- A field of an object whose values are parsed by `value`. -/
def objectField (value : Parser Literal) : Parser (String × Literal) := do
  let fieldName ← name
  let _ ← expect .colon
  return (fieldName, ← value)

/-- A value, nested less deeply than `fuel`. -/
def literalWithin (constant : Bool) : Nat → Parser Literal
  | 0 => unexpected
  | fuel + 1 => do
    match ← current with
    | none => unexpected
    | some t =>
      match t.kind with
      | .openBracket =>
        return .list (← any .openBracket (literalWithin constant fuel) .closeBracket)
      | .openBrace =>
        return .object (← any .openBrace (objectField (literalWithin constant fuel)) .closeBrace)
      | .int => advance; return .int t.value
      | .float => advance; return .float t.value
      | .string => advance; return .string t.value
      | .blockString => advance; return .block t.value
      | .name => advance; return namedLiteral t.value
      | .dollar => if constant then refuseVariable else return .var (← variableName)
      | _ => unexpected

/-- A value; in a constant no variable may appear. -/
def literal (constant : Bool) : Parser Literal := do literalWithin constant (← budget)

/-- A reference to a type, nested less deeply than `fuel`. -/
def typeRefWithin : Nat → Parser TypeRef
  | 0 => unexpected
  | fuel + 1 => do
    let type ←
      if ← accept .openBracket then
        let item ← typeRefWithin fuel
        let _ ← expect .closeBracket
        pure (TypeRef.list item)
      else pure (TypeRef.named (← name))
    if ← accept .bang then return .nonNull type else return type

/-- A reference to a type. -/
def typeRef : Parser TypeRef := do typeRefWithin (← budget)

/-- An argument. -/
def argument (constant : Bool) : Parser Argument := do
  let argumentName ← name
  let _ ← expect .colon
  return ⟨argumentName, ← literal constant⟩

/-- Arguments in brackets, or none. -/
def arguments (constant : Bool) : Parser (List Argument) :=
  optionalMany .openParen (argument constant) .closeParen

/-- Directives, at most as many as `fuel`. -/
def directivesWithin (constant : Bool) : Nat → Parser (List Directive)
  | 0 => unexpected
  | fuel + 1 => do
    if ← accept .atSign then
      let directiveName ← name
      let given ← arguments constant
      return ⟨directiveName, given⟩ :: (← directivesWithin constant fuel)
    else return []

/-- Directives. -/
def directives (constant : Bool) : Parser (List Directive) := do
  directivesWithin constant (← budget)

/-- The next token is a description. -/
def isAtDescription : Parser Bool := do
  return (← isAt .string) || (← isAt .blockString)

/-- Takes a description, if there is one. -/
def description : Parser Unit := do
  if ← isAtDescription then advance

end SnippetAudit.GraphQL.Parser
