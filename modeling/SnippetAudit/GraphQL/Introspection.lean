import SnippetAudit.Data.Value
import SnippetAudit.GraphQL.Schema

/-!
# Introspection documents

A schema is described by an introspection document, a data document with the schema's types, roots and
directives. Besides the types described there, every schema has the types of introspection itself, and the
standard scalars and directives.

## What this module delivers

- `metaTypes`, `standardScalars`, `standardDirectives`: what every schema has;
- `IntrospectionError`: why a document describes no schema;
- `unwrap`: the description inside a document;
- `Schema.ofIntrospection`: the schema that a document describes;
- `Schema.fault?`: why a schema cannot be used.
-/

set_option autoImplicit false

namespace SnippetAudit.GraphQL

/-! ## What every schema has -/

/-- The standard scalars. -/
def standardScalars : List String := ["String", "Int", "Float", "Boolean", "ID"]

/-- A reference to a type that may be null. -/
def optionalType (name : String) : TypeRef := .named name

/-- A reference to a type that is not null. -/
def requiredType (name : String) : TypeRef := .nonNull (.named name)

/-- A reference to a list without null. -/
def listType (name : String) : TypeRef := .list (requiredType name)

/-- The argument that asks for deprecated items too. -/
def includeDeprecated : InputField :=
  { name := "includeDeprecated", type := optionalType "Boolean", hasDefault := true }

/-- A field without arguments. -/
def plainField (name : String) (type : TypeRef) : Field := { name, type }

/-- The fields that tell of an item whether it is deprecated. -/
def deprecationFields : List Field :=
  [plainField "isDeprecated" (requiredType "Boolean"),
   plainField "deprecationReason" (optionalType "String")]

/-- The types of introspection. -/
def metaTypes : Members TypeBody :=
  [("__Schema", .object
      [plainField "description" (optionalType "String"),
       plainField "types" (.nonNull (listType "__Type")),
       plainField "queryType" (requiredType "__Type"),
       plainField "mutationType" (optionalType "__Type"),
       plainField "subscriptionType" (optionalType "__Type"),
       plainField "directives" (.nonNull (listType "__Directive"))] []),
   ("__Directive", .object
      [plainField "name" (requiredType "String"),
       plainField "description" (optionalType "String"),
       plainField "isRepeatable" (requiredType "Boolean"),
       plainField "locations" (.nonNull (listType "__DirectiveLocation")),
       { name := "args", arguments := [includeDeprecated],
         type := .nonNull (listType "__InputValue") }] []),
   ("__DirectiveLocation", .enum (Place.all.map Place.keyword)),
   ("__Type", .object
      [plainField "kind" (requiredType "__TypeKind"),
       plainField "name" (optionalType "String"),
       plainField "description" (optionalType "String"),
       plainField "specifiedByURL" (optionalType "String"),
       { name := "fields", arguments := [includeDeprecated], type := listType "__Field" },
       plainField "interfaces" (listType "__Type"),
       plainField "possibleTypes" (listType "__Type"),
       { name := "enumValues", arguments := [includeDeprecated], type := listType "__EnumValue" },
       { name := "inputFields", arguments := [includeDeprecated],
         type := listType "__InputValue" },
       plainField "ofType" (optionalType "__Type"),
       plainField "isOneOf" (optionalType "Boolean")] []),
   ("__Field", .object
      ([plainField "name" (requiredType "String"),
        plainField "description" (optionalType "String"),
        { name := "args", arguments := [includeDeprecated],
          type := .nonNull (listType "__InputValue") },
        plainField "type" (requiredType "__Type")] ++ deprecationFields) []),
   ("__InputValue", .object
      ([plainField "name" (requiredType "String"),
        plainField "description" (optionalType "String"),
        plainField "type" (requiredType "__Type"),
        plainField "defaultValue" (optionalType "String")] ++ deprecationFields) []),
   ("__EnumValue", .object
      ([plainField "name" (requiredType "String"),
        plainField "description" (optionalType "String")] ++ deprecationFields) []),
   ("__TypeKind", .enum
      ["SCALAR", "OBJECT", "INTERFACE", "UNION", "ENUM", "INPUT_OBJECT", "LIST", "NON_NULL"])]

/-- The standard directives. -/
def standardDirectives : List DirectiveRule :=
  let condition : List InputField := [{ name := "if", type := requiredType "Boolean" }]
  let selectionPlaces := [Place.field, .fragmentSpread, .inlineFragment]
  [⟨"include", condition, false, selectionPlaces⟩,
   ⟨"skip", condition, false, selectionPlaces⟩,
   ⟨"deprecated", [{ name := "reason", type := optionalType "String", hasDefault := true }], false,
    [.fieldDefinition, .argumentDefinition, .inputFieldDefinition, .enumValue]⟩,
   ⟨"specifiedBy", [{ name := "url", type := requiredType "String" }], false, [.scalar]⟩,
   ⟨"oneOf", [], false, [.inputObject]⟩]

/-! ## Errors -/

/-- Why a document describes no schema. -/
inductive IntrospectionError where
  /-- There is no description in the document. -/
  | noDescription
  /-- The description is no object. -/
  | invalidDescription (document : Value)
  /-- A member that must be there is missing. -/
  | missingMember (name : String)
  /-- What is said about a type makes no sense. -/
  | invalidType (type : Value)
  /-- A reference to a type names none. -/
  | invalidReference (reference : Value)
  /-- A reference to a list or to a type without null ends too early. -/
  | unfinishedReference
  /-- A type that is referred to is not described. -/
  | unknownType (name : String)
  deriving Repr

namespace IntrospectionError

/-- The wording of the errors. -/
def message : IntrospectionError → String
  | .noDescription => "Introspection document has no '__schema' key"
  | .invalidDescription document =>
    "Invalid or incomplete introspection result. Ensure that you are passing the 'data' attribute" ++
      " of an introspection response and no 'errors' were returned alongside: " ++ document.text ++ "."
  | .missingMember name => "'" ++ name ++ "'"
  | .invalidType type =>
    "Invalid or incomplete introspection result. Ensure that a full introspection query is used" ++
      " in order to build a client schema: " ++ type.text ++ "."
  | .invalidReference reference => "Unknown type reference: " ++ reference.text ++ "."
  | .unfinishedReference => "Decorated type deeper than introspection query."
  | .unknownType name =>
    "Invalid or incomplete schema, unknown type: " ++ name ++
      ". Ensure that a full introspection query is used in order to build a client schema."

end IntrospectionError

/-- A part of a document read, or why it cannot be. -/
abbrev Described (α : Type) := Except IntrospectionError α

/-! ## Reading -/

/-- The document that holds the description: the document itself or its `data`. -/
def unwrap (document : Members Value) : Described (Members Value) :=
  let inner :=
    match document.get? "data" with
    | some (.object data) => data
    | _ => document
  if Members.has inner "__schema" then .ok inner else .error .noDescription

/-- A member that must be there. -/
def requiredMember (v : Value) (name : String) : Described Value :=
  match v.member? name with
  | some found => .ok found
  | none => .error (.missingMember name)

/-- A member that must be there and be a string. -/
def requiredName (v : Value) (name : String) : Described String := do
  return ((← requiredMember v name).string?).getD ""

/-- The items of a member; there are none if it is missing. -/
def itemsOf (v : Value) (name : String) : List Value :=
  ((v.member? name).bind Value.items?).getD []

/-- A truth value that is false if it is missing. -/
def flagOf (v : Value) (name : String) : Bool :=
  match v.member? name with
  | some (.bool b) => b
  | _ => false

/-- The reference to a type, nested less deeply than `fuel`. -/
def referenceWithin : Nat → Value → Described TypeRef
  | 0, _ => .error .unfinishedReference
  | fuel + 1, v =>
    let kind := ((v.member? "kind").bind Value.string?).getD ""
    if kind = "LIST" ∨ kind = "NON_NULL" then
      match v.member? "ofType" with
      | some (.object inner) => do
        let type ← referenceWithin fuel (.object inner)
        return if kind = "LIST" then .list type else .nonNull type
      | _ => .error .unfinishedReference
    else
      match (v.member? "name").bind Value.string? with
      | some name => if name = "" then .error (.invalidReference v) else .ok (.named name)
      | none => .error (.invalidReference v)

/-- The reference to a type. -/
def reference (v : Value) : Described TypeRef := referenceWithin (v.depth + 1) v

/-- The names that a member refers to. -/
def namesOf (v : Value) (member : String) : Described (List String) :=
  (itemsOf v member).mapM fun item => return (← reference item).base

/-- An argument or a field of an input object. -/
def inputFieldOf (v : Value) : Described InputField := do
  return {
    name := ← requiredName v "name"
    type := ← reference (← requiredMember v "type")
    hasDefault := ((v.member? "defaultValue").bind Value.string?).isSome }

/-- A field. -/
def fieldOf (v : Value) : Described Field := do
  return {
    name := ← requiredName v "name"
    arguments := ← (itemsOf v "args").mapM inputFieldOf
    type := ← reference (← requiredMember v "type") }

/-- What a described type is. -/
def bodyOf (v : Value) : Described TypeBody := do
  match ← requiredName v "kind" with
  | "SCALAR" => return .scalar
  | "OBJECT" => return .object (← (itemsOf v "fields").mapM fieldOf) (← namesOf v "interfaces")
  | "INTERFACE" =>
    return .interface (← (itemsOf v "fields").mapM fieldOf) (← namesOf v "interfaces")
  | "UNION" => return .union (← namesOf v "possibleTypes")
  | "ENUM" => return .enum (← (itemsOf v "enumValues").mapM fun item => requiredName item "name")
  | "INPUT_OBJECT" =>
    return .inputObject (← (itemsOf v "inputFields").mapM inputFieldOf) (flagOf v "isOneOf")
  | _ => throw (.invalidType v)

/-- A directive. -/
def directiveOf (v : Value) : Described DirectiveRule := do
  return {
    name := ← requiredName v "name"
    arguments := ← (itemsOf v "args").mapM inputFieldOf
    repeatable := flagOf v "isRepeatable"
    places := (itemsOf v "locations").filterMap fun place =>
      place.string?.bind Place.ofKeyword? }

/-- The type at which operations of a kind start. -/
def rootOf (v : Value) (member : String) : Described (Option String) :=
  match v.member? member with
  | none | some .null => .ok none
  | some root => do return some (← reference root).base

/-- The types that inputs refer to. -/
def inputTypes (inputs : List InputField) : List String := inputs.map fun input => input.type.base

/-- The types that a type refers to. -/
def mentionedTypes (body : TypeBody) : List String :=
  match body with
  | .union members => members
  | .inputObject fields _ => inputTypes fields
  | other =>
    other.interfaces ++ other.fields.flatMap fun f => f.type.base :: inputTypes f.arguments

/-- The first type that is referred to and not described. -/
def Schema.missingType? (s : Schema) : Option String :=
  let mentioned :=
    [s.query?, s.mutation?, s.subscription?].filterMap id ++
      s.directives.flatMap (fun d => inputTypes d.arguments) ++
      s.types.flatMap fun (_, body) => mentionedTypes body
  mentioned.find? fun name => (s.body? name).isNone

/-- Members with those of `others` whose names they do not have. -/
def withMissing {α : Type} (members others : Members α) : Members α :=
  members ++ others.filter fun (name, _) => !members.has name

/-- The types of a schema, of which `described` are described. The types of introspection and the
standard scalars are always the same. -/
def allTypes (described : Members TypeBody) : Members TypeBody :=
  let fixed := metaTypes ++ standardScalars.map fun name => (name, TypeBody.scalar)
  -- a described type of a fixed name keeps its place and takes the fixed body
  withMissing (described.map fun (name, body) => (name, (fixed.get? name).getD body)) fixed

/-- The directives of a schema, of which `described` are described. -/
def allDirectives (described : List DirectiveRule) : List DirectiveRule :=
  described ++ standardDirectives.filter fun d => !(described.map DirectiveRule.name).contains d.name

/-- The schema that a description describes. -/
def Schema.ofDescription (v : Value) : Described Schema := do
  let items := ((← requiredMember v "types").items?).getD []
  let types ← items.mapM fun item => return (← requiredName item "name", ← bodyOf item)
  let schema : Schema := {
    types := allTypes (Members.ofPairs types)
    query? := ← rootOf v "queryType"
    mutation? := ← rootOf v "mutationType"
    subscription? := ← rootOf v "subscriptionType"
    directives := allDirectives (← (itemsOf v "directives").mapM directiveOf) }
  -- types are looked for when all of them are known, so the order of the descriptions does not matter
  match schema.missingType? with
  | some name => throw (.unknownType name)
  | none => return schema

/-- The schema that a document describes. -/
def Schema.ofIntrospection (document : Members Value) : Described Schema :=
  match document.get? "__schema" with
  | some (.object description) => Schema.ofDescription (.object description)
  | _ => .error (.invalidDescription (.object document))

/-- Why a schema cannot be used, if it cannot. -/
def Schema.fault? (s : Schema) : Option String :=
  if s.query?.isNone then some "Query root type must be provided." else none

end SnippetAudit.GraphQL
