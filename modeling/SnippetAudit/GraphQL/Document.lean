import SnippetAudit.GraphQL.StringLiteral

/-!
# Documents

A document is a list of definitions: operations, fragments, and declarations of the type system. Only the
first two can be executed. A declaration is kept as far as it is looked at: the types and directives that
it names, its default values, and its parts, in the order in which they are visited.

## What this module delivers

- `Literal` and `Literal.text`: values as they are written;
- `TypeRef` and `TypeRef.text`: references to types;
- `Selection`, `Operation`, `Fragment`: what can be executed;
- `Place`, `Declaration`, `Definition`, `Document`;
- `Document.operationName`: the kind of the first operation.
-/

set_option autoImplicit false

namespace SnippetAudit.GraphQL

/-! ## Literals -/

/-- A value as it is written in a document. -/
inductive Literal where
  | var (name : String)
  | int (digits : String)
  | float (digits : String)
  | string (value : String)
  | block (value : String)
  | bool (b : Bool)
  | null
  | enum (name : String)
  | list (items : List Literal)
  | object (fields : List (String × Literal))
  deriving Repr, Inhabited

namespace Literal

/-- The number of characters up to which a list or an object is written on one line. -/
def lineLimit : Nat := 80

/-- Lines indented by two spaces. -/
def indented (s : String) : String :=
  String.ofList (' ' :: ' ' :: s.toList.flatMap fun c => if c = '\n' then ['\n', ' ', ' '] else [c])

/-- A list of written items. -/
def listText (items : List String) : String :=
  let line := "[" ++ ", ".intercalate items ++ "]"
  if line.length > lineLimit then "[\n" ++ indented ("\n".intercalate items) ++ "\n]" else line

/-- An object of written fields. -/
def objectText (fields : List String) : String :=
  let line := "\x7b " ++ ", ".intercalate fields ++ " \x7d"
  if line.length > lineLimit then "\x7b\n" ++ indented ("\n".intercalate fields) ++ "\n\x7d"
  else line

mutual

/-- How messages show a literal. -/
def text : Literal → String
  | .var name => "$" ++ name
  | .int digits => digits
  | .float digits => digits
  | .string value => String.ofList (StringLiteral.quoted value.toList)
  | .block value => String.ofList (StringLiteral.block value.toList)
  | .bool b => if b then "true" else "false"
  | .null => "null"
  | .enum name => name
  | .list items => listText (itemTexts items)
  | .object fields => objectText (fieldTexts fields)

/-- How messages show each item of a list. -/
def itemTexts : List Literal → List String
  | [] => []
  | item :: rest => text item :: itemTexts rest

/-- How messages show each field of an object. -/
def fieldTexts : List (String × Literal) → List String
  | [] => []
  | (name, value) :: rest => (name ++ ": " ++ text value) :: fieldTexts rest

end

end Literal

/-! ## References to types -/

/-- A reference to a type. -/
inductive TypeRef where
  | named (name : String)
  | list (item : TypeRef)
  | nonNull (type : TypeRef)
  deriving Repr, DecidableEq, Inhabited

namespace TypeRef

/-- How a reference is written. -/
def text : TypeRef → String
  | .named name => name
  | .list item => "[" ++ item.text ++ "]"
  | .nonNull type => type.text ++ "!"

/-- The named type that a reference is built on. -/
def base : TypeRef → String
  | .named name => name
  | .list item => item.base
  | .nonNull type => type.base

/-- The reference without its mark that null is no value. -/
def nullable : TypeRef → TypeRef
  | .nonNull type => type
  | type => type

/-- Null is no value of the type. -/
def isNonNull : TypeRef → Bool
  | .nonNull _ => true
  | _ => false

/-- The reference is to a list. -/
def isList (type : TypeRef) : Bool :=
  match type.nullable with
  | .list _ => true
  | _ => false

/-- The type of the items where the reference is to a list, and else the type itself. -/
def itemType (type : TypeRef) : TypeRef :=
  match type.nullable with
  | .list item => item
  | other => other

end TypeRef

/-! ## Operations and fragments -/

/-- An argument. -/
structure Argument where
  name : String
  value : Literal
  deriving Repr, Inhabited

/-- A directive with its arguments. -/
structure Directive where
  name : String
  arguments : List Argument
  deriving Repr, Inhabited

/-- What a selected field says about itself. -/
structure FieldHead where
  /-- The name that its result is given instead of its own. -/
  alias? : Option String
  name : String
  arguments : List Argument
  directives : List Directive
  deriving Repr, Inhabited

/-- The name that the result of a field has. -/
def FieldHead.responseName (f : FieldHead) : String := f.alias?.getD f.name

/-- What is selected. Every set of selections has a place of its own: the number of tokens from its
opening brace on, which tells the sets of a document apart. -/
inductive Selection where
  /-- A field without selections. -/
  | leaf (field : FieldHead)
  /-- A field with selections of its own. -/
  | branch (field : FieldHead) (place : Nat) (selections : List Selection)
  /-- A fragment of the document. -/
  | spread (name : String) (directives : List Directive)
  /-- Selections for one type, or for the type around them. -/
  | inline (condition : Option String) (directives : List Directive) (place : Nat)
      (selections : List Selection)
  deriving Repr, Inhabited

/-- A set of selections with its place. -/
structure SelectionSet where
  place : Nat
  selections : List Selection
  deriving Repr, Inhabited

/-- The definition of a variable. -/
structure VariableDefinition where
  name : String
  type : TypeRef
  default : Option Literal
  directives : List Directive
  deriving Repr, Inhabited

/-- The kinds of operations. -/
inductive OperationKind where
  | query
  | mutation
  | subscription
  deriving Repr, DecidableEq, Inhabited

namespace OperationKind

/-- The name of a kind. -/
def name : OperationKind → String
  | .query => "query"
  | .mutation => "mutation"
  | .subscription => "subscription"

/-- The kind of a name. -/
def ofName? (name : String) : Option OperationKind :=
  [OperationKind.query, .mutation, .subscription].find? fun k => k.name == name

end OperationKind

/-- An operation. -/
structure Operation where
  kind : OperationKind
  name : Option String
  parameters : List VariableDefinition
  directives : List Directive
  set : SelectionSet
  deriving Repr, Inhabited

/-- A fragment. -/
structure Fragment where
  name : String
  condition : String
  directives : List Directive
  set : SelectionSet
  deriving Repr, Inhabited

/-! ## The type system -/

/-- The places where directives stand. -/
inductive Place where
  | query
  | mutation
  | subscription
  | field
  | fragmentDefinition
  | fragmentSpread
  | inlineFragment
  | variableDefinition
  | schema
  | scalar
  | object
  | fieldDefinition
  | argumentDefinition
  | interface
  | union
  | enum
  | enumValue
  | inputObject
  | inputFieldDefinition
  deriving Repr, DecidableEq, Inhabited

namespace Place

/-- All places. -/
def all : List Place :=
  [.query, .mutation, .subscription, .field, .fragmentDefinition, .fragmentSpread, .inlineFragment,
    .variableDefinition, .schema, .scalar, .object, .fieldDefinition, .argumentDefinition, .interface,
    .union, .enum, .enumValue, .inputObject, .inputFieldDefinition]

/-- The name of a place in a definition of a directive. -/
def keyword : Place → String
  | .query => "QUERY"
  | .mutation => "MUTATION"
  | .subscription => "SUBSCRIPTION"
  | .field => "FIELD"
  | .fragmentDefinition => "FRAGMENT_DEFINITION"
  | .fragmentSpread => "FRAGMENT_SPREAD"
  | .inlineFragment => "INLINE_FRAGMENT"
  | .variableDefinition => "VARIABLE_DEFINITION"
  | .schema => "SCHEMA"
  | .scalar => "SCALAR"
  | .object => "OBJECT"
  | .fieldDefinition => "FIELD_DEFINITION"
  | .argumentDefinition => "ARGUMENT_DEFINITION"
  | .interface => "INTERFACE"
  | .union => "UNION"
  | .enum => "ENUM"
  | .enumValue => "ENUM_VALUE"
  | .inputObject => "INPUT_OBJECT"
  | .inputFieldDefinition => "INPUT_FIELD_DEFINITION"

/-- The name of a place in messages. -/
def text : Place → String
  | .query => "query"
  | .mutation => "mutation"
  | .subscription => "subscription"
  | .field => "field"
  | .fragmentDefinition => "fragment definition"
  | .fragmentSpread => "fragment spread"
  | .inlineFragment => "inline fragment"
  | .variableDefinition => "variable definition"
  | .schema => "schema"
  | .scalar => "scalar"
  | .object => "object"
  | .fieldDefinition => "field definition"
  | .argumentDefinition => "argument definition"
  | .interface => "interface"
  | .union => "union"
  | .enum => "enum"
  | .enumValue => "enum value"
  | .inputObject => "input object"
  | .inputFieldDefinition => "input field definition"

/-- The place of a name. -/
def ofKeyword? (keyword : String) : Option Place := all.find? fun p => p.keyword == keyword

/-- The place of directives on an operation. -/
def ofOperation : OperationKind → Place
  | .query => .query
  | .mutation => .mutation
  | .subscription => .subscription

end Place

/-- The definition of an input: of an argument, or of a field of an input object. -/
structure InputDefinition where
  name : String
  type : TypeRef
  default : Option Literal
  directives : List Directive
  deriving Repr, Inhabited

/-- What a declaration of the type system holds, in the order in which it is visited. -/
inductive Declaration where
  /-- A named type is mentioned. -/
  | mention (type : String)
  /-- Directives stand at a place. -/
  | directives (place : Place) (ds : List Directive)
  /-- A default value is given. -/
  | default (value : Literal)
  /-- A part that holds declarations of its own. -/
  | part (contents : List Declaration)
  deriving Repr, Inhabited

/-- The directives that stand on what is declared, and not on its parts. -/
def Declaration.ownDirectives (contents : List Declaration) : List Directive :=
  contents.flatMap fun declaration => match declaration with
    | .directives _ ds => ds
    | _ => []

/-- The definition of a directive. -/
structure DirectiveDeclaration where
  name : String
  arguments : List InputDefinition
  repeatable : Bool
  places : List Place
  deriving Repr, Inhabited

/-- What the type system says in one definition. -/
inductive Subject where
  /-- The schema itself. -/
  | schema
  /-- A new type. -/
  | type (name : String)
  /-- An extension of a type. -/
  | extension (name : String)
  /-- A directive. -/
  | directive (d : DirectiveDeclaration)
  deriving Repr, Inhabited

/-- The name of a subject that has one. -/
def Subject.name? : Subject → Option String
  | .schema => none
  | .type name => name
  | .extension name => name
  | .directive d => d.name

/-! ## Documents -/

/-- A definition. -/
inductive Definition where
  | operation (o : Operation)
  | fragment (f : Fragment)
  | system (subject : Subject) (contents : List Declaration)
  deriving Repr, Inhabited

/-- A document. -/
abbrev Document := List Definition

namespace Document

/-- The operations of a document. -/
def operations (d : Document) : List Operation :=
  d.filterMap fun definition => match definition with
    | .operation o => some o
    | _ => none

/-- The fragments of a document. -/
def fragments (d : Document) : List Fragment :=
  d.filterMap fun definition => match definition with
    | .fragment f => some f
    | _ => none

/-- The fragment of a name; the last one if there are several. -/
def fragment? (d : Document) (name : String) : Option Fragment :=
  d.fragments.reverse.find? fun f => f.name == name

/-- The directives that a document defines. -/
def directiveDeclarations (d : Document) : List DirectiveDeclaration :=
  d.filterMap fun definition => match definition with
    | .system (.directive declaration) _ => some declaration
    | _ => none

/-- The types that a document defines. -/
def declaredTypes (d : Document) : List String :=
  d.filterMap fun definition => match definition with
    | .system (.type name) _ => some name
    | _ => none

/-- The kind of the first operation, as it is called in messages. -/
def operationName (d : Document) : String :=
  match d.operations with
  | o :: _ => o.kind.name
  | [] => "operation"

end Document

end SnippetAudit.GraphQL
