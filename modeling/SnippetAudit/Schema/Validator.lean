import SnippetAudit.Schema.Unevaluated

/-!
# Judging a value by a schema

A schema is true, false or an object of keywords. A value meets it when no keyword fails; keywords run in
the order in which they are written, and unknown ones say nothing. References may lead in circles, so
judging has a budget: it is large enough for every judgement that comes to an end, and where it is used up
judging breaks down. How deep values and schemas may be nested is not limited otherwise, and numbers are
shown with all of their digits.

## What this module delivers

- `keywords`: the keywords with their names;
- `failuresWithin`: the failures of a value under a schema within a budget;
- `budgetFor`: the budget for a whole document.
-/

set_option autoImplicit false

namespace SnippetAudit.Schema

/-- The keywords with their names. -/
def keywords : Members Keyword :=
  [("$ref", reference),
    ("$dynamicRef", reference),
    ("type", typeKeyword),
    ("properties", properties),
    ("required", required),
    ("additionalProperties", additionalProperties),
    ("patternProperties", patternProperties),
    ("enum", enumKeyword),
    ("const", constKeyword),
    ("minimum", minimum),
    ("maximum", maximum),
    ("exclusiveMinimum", exclusiveMinimum),
    ("exclusiveMaximum", exclusiveMaximum),
    ("multipleOf", multipleOf),
    ("minLength", minLength),
    ("maxLength", maxLength),
    ("pattern", pattern),
    ("format", format),
    ("prefixItems", prefixItems),
    ("items", items),
    ("contains", contains),
    ("minItems", minItems),
    ("maxItems", maxItems),
    ("uniqueItems", uniqueItems),
    ("minProperties", minProperties),
    ("maxProperties", maxProperties),
    ("propertyNames", propertyNames),
    ("dependentRequired", dependentRequired),
    ("dependentSchemas", dependentSchemas),
    ("allOf", allOf),
    ("anyOf", anyOf),
    ("oneOf", oneOf),
    ("not", negation),
    ("if", condition),
    ("unevaluatedProperties", unevaluatedProperties),
    ("unevaluatedItems", unevaluatedItems)]

/-- The failures of a value under one keyword; unknown keywords have none. -/
def keywordFailures (scope : Scope) (v : Value) (member : String × Value) : List Failure :=
  match keywords.get? member.1 with
  | some keyword => keyword scope member.2 v
  | none => []

/-- The failures of a value under a schema of a document, following at most `budget` references and
subschemas into each other. -/
def failuresWithin (root : Value) (manner : Manner) : Nat → Value → Value → List Failure
  | 0, _, _ => [.broken .endless]
  | budget + 1, schema, v =>
    match schema with
    | .bool false => [.here ("False schema does not allow " ++ shown v)]
    | .object members =>
      members.flatMap <|
        keywordFailures ⟨root, members, manner, budget, failuresWithin root manner budget⟩ v
    -- besides true, no other value stands in a document where a schema is asked for, once the document is checked
    | _ => []

/-- A budget that suffices where no references lead in a circle: at one place of the value no schema of
the document is entered twice. -/
def budgetFor (root v : Value) : Nat := (root.size + 1) * (v.depth + 2)

end SnippetAudit.Schema
