import SnippetAudit.GraphQL.Reference
import SnippetAudit.GraphQL.Suggestion

/-!
# Rules on values

A literal must be a value of the type expected in its place. Variables are left to the rules on variables.
A list may be left out around a single item, and null is a value of every type that is not marked
otherwise.

## What this module delivers

- `leafFault?`: what is wrong with a literal for a scalar or an enum;
- `valueFaults`: what is wrong with a literal for any type;
- `duplicateFields`: fields given twice in an object.
-/

set_option autoImplicit false

namespace SnippetAudit.GraphQL.Rules

/-! ## Scalars and enums -/

/-- The whole number that digits with an optional sign make. -/
def intOfDigits (digits : String) : Int := digits.toInt?.getD 0

/-- The number fits into 32 bits with a sign. -/
def fitsInt (n : Int) : Bool := -0x80000000 ≤ n && n < 0x80000000

/-- What is wrong with a literal for a standard scalar. -/
def scalarFault? (scalar : String) (value : Literal) : Option String :=
  let refusal (words : String) : Option String := some (scalar ++ " cannot represent " ++ words ++ value.text)
  match scalar, value with
  | "Int", .int digits =>
    if fitsInt (intOfDigits digits) then none
    else refusal "non 32-bit signed integer value: "
  | "Int", _ => refusal "non-integer value: "
  | "Float", .int _ => none
  | "Float", .float _ => none
  | "Float", _ => refusal "non numeric value: "
  | "String", .string _ => none
  | "String", .block _ => none
  | "String", _ => refusal "a non string value: "
  | "Boolean", .bool _ => none
  | "Boolean", _ => refusal "a non boolean value: "
  | "ID", .int _ => none
  | "ID", .string _ => none
  | "ID", .block _ => none
  | "ID", _ => refusal "a non-string and non-integer value: "
  | _, _ => none

/-- What is wrong with a literal for an enum with the given values. -/
def enumFault? (name : String) (values : List String) (value : Literal) : Option String :=
  let hint := didYouMean "the enum value " (suggestions value.text values)
  match value with
  | .enum v =>
    if values.contains v then none
    else some ("Value '" ++ v ++ "' does not exist in '" ++ name ++ "' enum." ++ hint)
  | _ =>
    some ("Enum '" ++ name ++ "' cannot represent non-enum value: " ++ value.text ++ "." ++ hint)

/-- What is wrong with a literal for a scalar or an enum. -/
def leafFault? (s : Schema) (name : String) (value : Literal) : Option String :=
  match s.body? name with
  | some .scalar => scalarFault? name value
  | some (.enum values) => enumFault? name values value
  | _ => none

/-! ## All types -/

/-- What is wrong with a literal that is neither null nor an object, for a named type. -/
def namedFaults (s : Schema) (name : String) (value : Literal) : List String :=
  match s.body? name with
  | some (.inputObject _ _) =>
    ["Expected value of type '" ++ name ++ "' to be an object, found: " ++ value.text ++ "."]
  | _ => (leafFault? s name value).toList

/-- What is wrong with null for a type. -/
def nullFaults (type : TypeRef) : List String :=
  if type.isNonNull then
    ["Expected value of non-null type '" ++ type.text ++ "' not to be None."]
  else []

/-- What is wrong with the fields of an object: with a field of the type, missing or given (with the
faults of its value), and with fields that the type does not have. -/
def objectFaults (name : String) (inputs : List InputField) (whole : Literal)
    (given : List (String × List String)) : List String :=
  let known := inputs.flatMap fun input =>
    -- of fields with one name the last counts
    match given.reverse.lookup input.name with
    | some faults => faults
    | none =>
      if input.isRequired then
        ["Expected value of type '" ++ name ++ "' to include required field '" ++ input.name ++
          "', found: " ++ whole.text ++ "."]
      else []
  let names := inputs.map InputField.name
  let unknown := (given.map Prod.fst).filter fun field => !names.contains field
  known ++ unknown.map fun field =>
    let hint := didYouMean "" (suggestions field names)
    "Expected value of type '" ++ name ++ "' not to include unknown field '" ++ field ++ "'" ++
      (if hint = "" then ", found" else "." ++ hint ++ " Found") ++ ": " ++ whole.text ++ "."

/-- What is wrong with an object of which exactly one field must be given, and not be null. -/
def oneOfFaults (name : String) (fields : List (String × Literal)) : List String :=
  match fields with
  | [(field, .null)] =>
    ["Field '" ++ name ++ "." ++ field ++ "' used for OneOf Input Object must be non-null."]
  | [_] => []
  | _ => ["OneOf Input Object '" ++ name ++ "' must specify exactly one key."]

mutual

/-- What is wrong with a literal for a type. -/
def valueFaults (s : Schema) (type : TypeRef) : Literal → List String
  | .var _ => []
  | .null => nullFaults type
  | .list items =>
    match type.nullable with
    | .list item => itemFaults s item items
    -- a list where none is expected is judged as a value of the named type
    | other => namedFaults s other.base (.list items)
  | .object fields =>
    match s.body? type.base with
    | some (.inputObject inputs oneOf) =>
      objectFaults type.base inputs (.object fields) (fieldFaults s inputs fields) ++
        if oneOf then oneOfFaults type.base fields else []
    | _ => (leafFault? s type.base (.object fields)).toList
  | .int digits => namedFaults s type.base (.int digits)
  | .float digits => namedFaults s type.base (.float digits)
  | .string value => namedFaults s type.base (.string value)
  | .block value => namedFaults s type.base (.block value)
  | .bool b => namedFaults s type.base (.bool b)
  | .enum name => namedFaults s type.base (.enum name)

/-- What is wrong with the items of a list. -/
def itemFaults (s : Schema) (type : TypeRef) : List Literal → List String
  | [] => []
  | item :: rest => valueFaults s type item ++ itemFaults s type rest

/-- What is wrong with the values of fields, field by field. -/
def fieldFaults (s : Schema) (inputs : List InputField) :
    List (String × Literal) → List (String × List String)
  | [] => []
  | (name, value) :: rest =>
    let faults :=
      match inputOf? inputs name with
      | some input => valueFaults s input.type value
      | none => []
    (name, faults) :: fieldFaults s inputs rest

end

/-! ## Fields given twice -/

mutual

/-- The fields given twice in the objects of a literal. -/
def duplicateFields : Literal → List String
  | .list items => duplicateFieldsInItems items
  | .object fields => duplicateFieldsFrom [] fields
  | _ => []

/-- The fields given twice in the items of a list. -/
def duplicateFieldsInItems : List Literal → List String
  | [] => []
  | item :: rest => duplicateFields item ++ duplicateFieldsInItems rest

/-- The fields given twice in the fields of an object behind fields with the names `known`. -/
def duplicateFieldsFrom (known : List String) : List (String × Literal) → List String
  | [] => []
  | (name, value) :: rest =>
    (if known.contains name then ["There can be only one input field named '" ++ name ++ "'."]
      else []) ++
      duplicateFields value ++ duplicateFieldsFrom (name :: known) rest

end

/-- What the rules on values say about a literal in a place where a type may be expected. -/
def literalFaults (s : Schema) (type : Option TypeRef) (value : Literal) : List String :=
  (type.map fun type => valueFaults s type value).getD [] ++ duplicateFields value

end SnippetAudit.GraphQL.Rules
