import SnippetAudit.Data.Members
import SnippetAudit.GraphQL.Document

/-!
# Schemas

A schema has types by name, the types at which operations start, and directives. Types refer to each other
by name.

## What this module delivers

- `InputField`, `Field`, `TypeBody`, `DirectiveRule`, `Schema`;
- `Schema.field?`: the field of a type, those of introspection included;
- `Schema.isSubType`, `Schema.acceptsType`, `Schema.overlap`: how types relate;
- `isComposite`, `isLeaf`, `isInput`: the classes of types.
-/

set_option autoImplicit false

namespace SnippetAudit.GraphQL

/-- An argument, or a field of an input object. -/
structure InputField where
  name : String
  type : TypeRef
  hasDefault : Bool := false
  deriving Repr, Inhabited

/-- A value must be given. -/
def InputField.isRequired (f : InputField) : Bool := f.type.isNonNull && !f.hasDefault

/-- A field that can be selected. -/
structure Field where
  name : String
  arguments : List InputField := []
  type : TypeRef
  deriving Repr, Inhabited

/-- What a type is. -/
inductive TypeBody where
  | scalar
  | object (fields : List Field) (interfaces : List String)
  | interface (fields : List Field) (interfaces : List String)
  | union (members : List String)
  | enum (values : List String)
  | inputObject (fields : List InputField) (oneOf : Bool)
  deriving Repr, Inhabited

namespace TypeBody

/-- The fields that can be selected by name. -/
def fields : TypeBody → List Field
  | .object fields _ => fields
  | .interface fields _ => fields
  | _ => []

/-- The interfaces that a type implements. -/
def interfaces : TypeBody → List String
  | .object _ interfaces => interfaces
  | .interface _ interfaces => interfaces
  | _ => []

/-- The type has selections. -/
def isComposite : TypeBody → Bool
  | .object _ _ | .interface _ _ | .union _ => true
  | _ => false

/-- The type is a scalar or an enum. -/
def isLeaf : TypeBody → Bool
  | .scalar | .enum _ => true
  | _ => false

/-- The type is the type of values that are given. -/
def isInput : TypeBody → Bool
  | .scalar | .enum _ | .inputObject _ _ => true
  | _ => false

/-- The type is an object type. -/
def isObject : TypeBody → Bool
  | .object _ _ => true
  | _ => false

/-- The type is an interface. -/
def isInterface : TypeBody → Bool
  | .interface _ _ => true
  | _ => false

/-- The type stands for several object types. -/
def isAbstract : TypeBody → Bool
  | .interface _ _ | .union _ => true
  | _ => false

end TypeBody

/-- A directive of the schema. -/
structure DirectiveRule where
  name : String
  arguments : List InputField
  repeatable : Bool
  places : List Place
  deriving Repr, Inhabited

/-- A schema. -/
structure Schema where
  types : Members TypeBody
  query? : Option String
  mutation? : Option String
  subscription? : Option String
  directives : List DirectiveRule
  deriving Repr, Inhabited

/-- A field with the name of the type that has it. -/
structure FieldSite where
  owner : String
  field : Field
  deriving Repr, Inhabited

/-- How messages name a field. -/
def FieldSite.text (f : FieldSite) : String := f.owner ++ "." ++ f.field.name

namespace Schema

/-! ## Types -/

/-- What a named type is. -/
def body? (s : Schema) (name : String) : Option TypeBody := s.types.get? name

/-- The type is there and meets a condition. -/
def typeMeets (s : Schema) (name : String) (p : TypeBody → Bool) : Bool := (s.body? name).any p

/-- The type at which operations of a kind start. -/
def root? (s : Schema) : OperationKind → Option String
  | .query => s.query?
  | .mutation => s.mutation?
  | .subscription => s.subscription?

/-- A reference to a type that the schema knows. -/
def known? (s : Schema) (type : TypeRef) : Option TypeRef :=
  if (s.body? type.base).isSome then some type else none

/-- The directive of a name. -/
def directive? (s : Schema) (name : String) : Option DirectiveRule :=
  s.directives.find? fun d => d.name == name

/-- The owner of the fields that belong to introspection. -/
def metaOwner : String := "<meta>"

/-- The field of introspection that a type has under a name. -/
def metaField? (s : Schema) (parent name : String) : Option Field :=
  if name = "__typename" then some { name, type := .nonNull (.named "String") }
  else if s.query? = some parent then
    if name = "__schema" then some { name, type := .nonNull (.named "__Schema") }
    else if name = "__type" then
      some {
        name
        arguments := [{ name := "name", type := .nonNull (.named "String") }]
        type := .named "__Type" }
    else none
  else none

/-- The field of a type under a name. -/
def field? (s : Schema) (parent name : String) : Option FieldSite :=
  match s.metaField? parent name with
  | some field => some ⟨metaOwner, field⟩
  | none =>
    (((s.body? parent).map TypeBody.fields).getD []).find? (fun f => f.name == name) |>.map
      fun field => ⟨parent, field⟩

/-! ## How types relate -/

/-- The object types that a type stands for. -/
def possibleTypes (s : Schema) (name : String) : List String :=
  match s.body? name with
  | some (.union members) => members
  | some (.interface _ _) =>
    (s.types.filter fun (_, body) => body.isObject && body.interfaces.contains name).map Prod.fst
  | _ => []

/-- The second type is one of those that the first stands for, or an interface that implements it. -/
def isSubType (s : Schema) (abstract name : String) : Bool :=
  match s.body? abstract with
  | some (.union members) => members.contains name
  | some (.interface _ _) => s.typeMeets name fun body => body.interfaces.contains abstract
  | _ => false

/-- Values of the second type may stand where the first is expected. -/
def acceptsType (s : Schema) : TypeRef → TypeRef → Bool
  | .nonNull expected, .nonNull given => acceptsType s expected given
  | .nonNull _, _ => false
  | expected, .nonNull given => acceptsType s expected given
  | .list expected, .list given => acceptsType s expected given
  | .list _, _ => false
  | _, .list _ => false
  | .named expected, .named given => expected == given || s.isSubType expected given

/-- Two types have an object type in common. -/
def overlap (s : Schema) (a b : String) : Bool :=
  if a = b then true
  else
    match s.typeMeets a TypeBody.isAbstract, s.typeMeets b TypeBody.isAbstract with
    | true, true => (s.possibleTypes a).any fun type => s.isSubType b type
    | true, false => s.isSubType a b
    | false, true => s.isSubType b a
    | false, false => false

end Schema

end SnippetAudit.GraphQL
