import SnippetAudit.Data.Distinct
import SnippetAudit.GraphQL.Rules.Argument

/-!
# Rules on operations and variables

An operation must be of a kind that the schema has, and must have a name of its own if there are several. A
subscription selects one field that does not belong to introspection. Variables must be of types of input,
be defined, be used, and fit where they are used.

## What this module delivers

- `operationFaults`: what is said where an operation begins;
- `variableUseFaults`: what is said about variables where it ends;
- `inputTypeFaults`: a variable of a type that is no type of input.
-/

set_option autoImplicit false

namespace SnippetAudit.GraphQL.Rules

/-! ## Subscriptions -/

/-- The directive has its condition set to a truth value. -/
def conditionIs (b : Bool) (d : Directive) : Bool :=
  d.arguments.any fun a => a.name == "if" && match a.value with
    | .bool given => given == b
    | _ => false

/-- Directives leave a selection out. -/
def leavesOut (ds : List Directive) : Bool :=
  ds.any fun d => (d.name == "skip" && conditionIs true d) || (d.name == "include" && conditionIs false d)

/-- A condition holds for objects of a type. -/
def conditionHolds (s : Schema) (type : String) (condition : Option String) : Bool :=
  match condition with
  | none => true
  | some name => name == type || s.isSubType name type

/-- The fields that selections come to, and the fragments spread by then. -/
abbrev Collected := List FieldHead × List String

mutual

/-- The fields that selections come to for objects of a type, where `spread` gives those of a fragment
and `seen` are the fragments spread before. -/
def collectFields (s : Schema) (type : String) (spread : List String → String → Collected)
    (seen : List String) : List Selection → Collected
  | [] => ([], seen)
  | selection :: rest =>
    let (first, seen) := collectField s type spread seen selection
    let (more, seen) := collectFields s type spread seen rest
    (first ++ more, seen)

/-- The fields that a selection comes to. -/
def collectField (s : Schema) (type : String) (spread : List String → String → Collected)
    (seen : List String) : Selection → Collected
  | .leaf f => (if leavesOut f.directives then [] else [f], seen)
  | .branch f _ _ => (if leavesOut f.directives then [] else [f], seen)
  | .spread name directives =>
    if leavesOut directives || seen.contains name then ([], seen)
    else spread (name :: seen) name
  | .inline condition directives _ selections =>
    if leavesOut directives || !conditionHolds s type condition then ([], seen)
    else collectFields s type spread seen selections

end

/-- The fields that a fragment comes to, with fragments nested less deeply than `fuel`. -/
def fragmentFields (scope : Scope) (type : String) : Nat → List String → String → Collected
  | 0, seen, _ => ([], seen)
  | fuel + 1, seen, name =>
    match scope.document.fragment? name with
    | some f =>
      if conditionHolds scope.schema type (some f.condition) then
        collectFields scope.schema type (fragmentFields scope type fuel) seen f.set.selections
      else ([], seen)
    | none => ([], seen)

/-- The fields that an operation comes to, the first of each response name. -/
def responseFields (scope : Scope) (type : String) (o : Operation) : List FieldHead :=
  let fields := (collectFields scope.schema type
    (fragmentFields scope type (scope.document.fragments.length + 1)) [] o.set.selections).1
  (distinctNames (fields.map FieldHead.responseName)).filterMap fun name =>
    fields.find? fun f => f.responseName == name

/-- A subscription that selects several fields, or fields of introspection. -/
def subscriptionFaults (scope : Scope) (o : Operation) : List String :=
  match o.kind, scope.schema.subscription? with
  | .subscription, some type =>
    let subject := match o.name with
      | some name => "Subscription '" ++ name ++ "'"
      | none => "Anonymous Subscription"
    let fields := responseFields scope type o
    (if fields.length > 1 then [subject ++ " must select only one top level field."] else []) ++
      (fields.filter fun f => f.name.startsWith "__").map fun _ =>
        subject ++ " must not select an introspection top level field."
  | _, _ => []

/-! ## Variables -/

/-- The end of a message that names the operation, if it has a name. -/
def operationSuffix (words : String) (o : Operation) : String :=
  match o.name with
  | some name => words ++ " '" ++ name ++ "'."
  | none => "."

/-- Variables that are used and not defined. -/
def undefinedVariables (scope : Scope) (o : Operation) : List String :=
  let defined := o.parameters.map VariableDefinition.name
  ((usesReached scope o).filter fun use => !defined.contains use.name).map fun use =>
    "Variable '$" ++ use.name ++ "' is not defined" ++ operationSuffix " by operation" o

/-- Variables that are defined and not used. -/
def unusedVariables (scope : Scope) (o : Operation) : List String :=
  let used := (usesReached scope o).map VariableUse.name
  ((o.parameters.map VariableDefinition.name).filter fun name => !used.contains name).map fun name =>
    "Variable '$" ++ name ++ "' is never used" ++ operationSuffix " in operation" o

/-- A variable of a type that is no type of input. -/
def inputTypeFaults (s : Schema) (v : VariableDefinition) : List String :=
  match s.body? v.type.base with
  | some body =>
    if body.isInput then []
    else ["Variable '$" ++ v.name ++ "' cannot be non-input type '" ++ v.type.text ++ "'."]
  | none => []

/-- A variable of a type may stand where a type is expected. A default, of the variable or of the place,
makes up for null. -/
def fitsPlace (s : Schema) (v : VariableDefinition) (expected : TypeRef) (hasDefault : Bool) : Bool :=
  let variableDefault := match v.default with
    | some .null => false
    | some _ => true
    | none => false
  if expected.isNonNull && !v.type.isNonNull then
    (variableDefault || hasDefault) && s.acceptsType expected.nullable v.type
  else s.acceptsType expected v.type

/-- Variables that do not fit where they are used. -/
def variableUseFaults (scope : Scope) (o : Operation) : List String :=
  (usesReached scope o).filterMap fun use =>
    match o.parameters.reverse.find? (fun v => v.name == use.name), use.type with
    | some v, some expected =>
      if (scope.schema.known? v.type).isNone || fitsPlace scope.schema v expected use.hasDefault then
        none
      else
        some ("Variable '$" ++ use.name ++ "' of type '" ++ v.type.text ++
          "' used in position expecting type '" ++ expected.text ++ "'.")
    | _, _ => none

/-! ## Operations -/

/-- What is said where an operation begins, of which `before` are the operations in front of it. -/
def operationFaults (scope : Scope) (before : List Operation) (o : Operation) : List String :=
  let unsupported :=
    if (scope.schema.root? o.kind).isNone then
      ["The " ++ o.kind.name ++ " operation is not supported by the schema."]
    else []
  let nameTaken := match o.name with
    | some name =>
      if before.any fun other => other.name == some name then
        ["There can be only one operation named '" ++ name ++ "'."]
      else []
    | none => []
  let notAlone :=
    if o.name.isNone && scope.document.operations.length > 1 then
      ["This anonymous operation must be the only defined operation."]
    else []
  let repeated := (repeatedNames (o.parameters.map VariableDefinition.name)).map fun name =>
    "There can be only one variable named '$" ++ name ++ "'."
  unsupported ++ nameTaken ++ notAlone ++ subscriptionFaults scope o ++ repeated ++
    undefinedVariables scope o ++ unusedVariables scope o ++
    repeatedDirectives scope [] o.directives

end SnippetAudit.GraphQL.Rules
