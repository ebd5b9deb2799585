import SnippetAudit.GraphQL.Parser.Value

/-!
# Parsing the type system

Declarations of the type system are never executed, but a document that holds them is parsed as a whole.

## What this module delivers

- `declaration?`: the parser of a declaration that starts with a keyword;
- `extensionDefinition`: an extension of the schema or of a type.
-/

set_option autoImplicit false

namespace SnippetAudit.GraphQL.Parser

/-! ## Parts -/

/-- Directives at a place. -/
def placedDirectives (place : Place) : Parser Declaration := do
  return .directives place (← directives true)

/-- The definition of an input. -/
def inputDefinition : Parser InputDefinition := do
  description
  let definedName ← name
  let _ ← expect .colon
  let type ← typeRef
  let default ← if ← accept .equals then some <$> literal true else pure none
  return ⟨definedName, type, default, ← directives true⟩

/-- What the definition of an input at a place holds. -/
def inputPart (place : Place) (i : InputDefinition) : Declaration :=
  .part ([.mention i.type.base] ++ (i.default.map Declaration.default).toList ++
    [.directives place i.directives])

/-- Arguments of a field or of a directive. -/
def argumentDefinitions : Parser (List InputDefinition) :=
  optionalMany .openParen inputDefinition .closeParen

/-- The definition of a field. -/
def fieldDefinition : Parser Declaration := do
  description
  let _ ← name
  let given ← argumentDefinitions
  let _ ← expect .colon
  let type ← typeRef
  return .part (given.map (inputPart .argumentDefinition) ++
    [.mention type.base, ← placedDirectives .fieldDefinition])

/-- The definitions of fields in braces, or none. -/
def fieldDefinitions : Parser (List Declaration) :=
  optionalMany .openBrace fieldDefinition .closeBrace

/-- The fields of an input object in braces, or none. -/
def inputFields : Parser (List Declaration) := do
  return (← optionalMany .openBrace inputDefinition .closeBrace).map
    (inputPart .inputFieldDefinition)

/-- A mentioned type. -/
def mentionedType : Parser Declaration := do return .mention (← name)

/-- The interfaces that a type implements. -/
def interfaces : Parser (List Declaration) := do
  if ← acceptKeyword "implements" then separated .ampersand mentionedType else return []

/-- The members of a union. -/
def unionMembers : Parser (List Declaration) := do
  if ← accept .equals then separated .pipe mentionedType else return []

/-- A value of an enum. -/
def enumValue : Parser Declaration := do
  description
  match ← current with
  | some t =>
    if ["true", "false", "null"].contains t.value then
      throw ⟨t.start, .reservedEnumValue t⟩
  | none => pure ()
  let _ ← name
  return .part [← placedDirectives .enumValue]

/-- The values of an enum in braces, or none. -/
def enumValues : Parser (List Declaration) := optionalMany .openBrace enumValue .closeBrace

/-- The type of an operation of the schema. -/
def rootType : Parser Declaration := do
  let _ ← expect .name
  let _ ← expect .colon
  mentionedType

/-- A place of a directive. -/
def place : Parser Place := do
  let before ← get
  match Place.ofKeyword? (← name) with
  | some found => return found
  | none => throw ⟨before.start, .unexpected before.head?⟩

/-! ## Bodies -/

/-- The kinds of types. -/
inductive TypeKeyword where
  | scalar
  | object
  | interface
  | union
  | enum
  | inputObject
  deriving Repr, DecidableEq

namespace TypeKeyword

/-- The word that starts a declaration of a type of a kind. -/
def word : TypeKeyword → String
  | .scalar => "scalar"
  | .object => "type"
  | .interface => "interface"
  | .union => "union"
  | .enum => "enum"
  | .inputObject => "input"

/-- The kind that a word starts. -/
def ofWord? (word : String) : Option TypeKeyword :=
  [TypeKeyword.scalar, .object, .interface, .union, .enum, .inputObject].find? fun k =>
    k.word == word

/-- What stands behind the name of a type of a kind. -/
def body : TypeKeyword → Parser (List Declaration)
  | .scalar => do return [← placedDirectives .scalar]
  | .object => do
    let implemented ← interfaces
    let given ← placedDirectives .object
    return given :: implemented ++ (← fieldDefinitions)
  | .interface => do
    let implemented ← interfaces
    let given ← placedDirectives .interface
    return given :: implemented ++ (← fieldDefinitions)
  | .union => do
    let given ← placedDirectives .union
    return given :: (← unionMembers)
  | .enum => do
    let given ← placedDirectives .enum
    return given :: (← enumValues)
  | .inputObject => do
    let given ← placedDirectives .inputObject
    return given :: (← inputFields)

end TypeKeyword

/-! ## Declarations -/

/-- The declaration of the schema. -/
def schemaDefinition : Parser Definition := do
  description
  expectKeyword "schema"
  let given ← placedDirectives .schema
  return .system .schema (given :: (← many .openBrace rootType .closeBrace))

/-- The declaration of a type. -/
def typeDefinition (keyword : TypeKeyword) : Parser Definition := do
  description
  expectKeyword keyword.word
  let definedName ← name
  return .system (.type definedName) (← keyword.body)

/-- The declaration of a directive. -/
def directiveDefinition : Parser Definition := do
  description
  expectKeyword "directive"
  let _ ← expect .atSign
  let definedName ← name
  let given ← argumentDefinitions
  let repeatable ← acceptKeyword "repeatable"
  expectKeyword "on"
  let places ← separated .pipe place
  return .system (.directive ⟨definedName, given, repeatable, places⟩)
    (given.map (inputPart .argumentDefinition))

/-- The parser of the declaration that a keyword starts. -/
def declaration? (keyword : String) : Option (Parser Definition) :=
  if keyword = "schema" then some schemaDefinition
  else if keyword = "directive" then some directiveDefinition
  else (TypeKeyword.ofWord? keyword).map typeDefinition

/-! ## Extensions -/

/-- The declarations say nothing. -/
def isBlankBody (body : List Declaration) : Bool :=
  body.all fun declaration => match declaration with
    | .directives _ [] => true
    | _ => false

/-- An extension of the schema or of a type, which must say something. -/
def extensionDefinition : Parser Definition := do
  expectKeyword "extend"
  match ← current with
  | some t =>
    if isKeyword "schema" t then
      advance
      let given ← placedDirectives .schema
      let body := given :: (← optionalMany .openBrace rootType .closeBrace)
      if isBlankBody body then unexpected
      return .system .schema body
    else
      match if t.kind == .name then TypeKeyword.ofWord? t.value else none with
      | some keyword =>
        advance
        let extended ← name
        let body ← keyword.body
        if isBlankBody body then unexpected
        return .system (.extension extended) body
      | none => unexpected
  | none => unexpected

end SnippetAudit.GraphQL.Parser
