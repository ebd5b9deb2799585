import SnippetAudit.Schema.Validator

/-!
# The schema of schemas

A schema document is itself a value that meets a schema. The schema of schemas is put together from seven
vocabularies, which are tried in a fixed order, and a type; the first failure tells what is wrong with a
document.

## What this module delivers

- `metaSchema`: the schema of schemas;
- `checkDocument?`: what is wrong with a document, if anything;
- `failures`: the failures of a value under a whole document.
-/

set_option autoImplicit false

namespace SnippetAudit.Schema

/-! ## Parts -/

/-- A schema with the given keywords. -/
def schemaOf (members : List (String × Value)) : Value := .object members

/-- A reference into the document. -/
def refTo (target : String) : Value := schemaOf [("$ref", .str target)]

/-- A reference to a named part. -/
def partRef (name : String) : Value := refTo ("#/$defs/" ++ name)

/-- Any schema. -/
def anySchema : Value := refTo "#"

/-- A value of one type. -/
def ofType (name : String) : Value := schemaOf [("type", .str name)]

/-- An object with any members that meet a schema. -/
def objectOf (schema : Value) : Value :=
  schemaOf [("type", .str "object"), ("additionalProperties", schema)]

/-- A vocabulary: what its keywords must look like. -/
def vocabulary (properties : List (String × Value)) : Value :=
  schemaOf [("type", .list [.str "object", .str "boolean"]), ("properties", .object properties)]

/-! ## Vocabularies -/

/-- Identifiers, references and definitions. -/
def coreVocabulary : Value :=
  vocabulary
    [("$id", schemaOf [("$ref", .str "#/$defs/uriReferenceString"), ("pattern", .str "^[^#]*#?$")]),
      ("$schema", partRef "uriString"),
      ("$ref", partRef "uriReferenceString"),
      ("$anchor", partRef "anchorString"),
      ("$dynamicRef", partRef "uriReferenceString"),
      ("$dynamicAnchor", partRef "anchorString"),
      ("$vocabulary", schemaOf [("type", .str "object"), ("propertyNames", partRef "uriString"),
        ("additionalProperties", ofType "boolean")]),
      ("$comment", ofType "string"),
      ("$defs", objectOf anySchema)]

/-- Keywords that apply subschemas. -/
def applicatorVocabulary : Value :=
  vocabulary
    [("prefixItems", partRef "schemaArray"),
      ("items", anySchema),
      ("contains", anySchema),
      ("additionalProperties", anySchema),
      ("properties", objectOf anySchema),
      ("patternProperties", schemaOf [("type", .str "object"), ("additionalProperties", anySchema),
        ("propertyNames", schemaOf [("format", .str "regex")])]),
      ("dependentSchemas", objectOf anySchema),
      ("propertyNames", anySchema),
      ("if", anySchema),
      ("then", anySchema),
      ("else", anySchema),
      ("allOf", partRef "schemaArray"),
      ("anyOf", partRef "schemaArray"),
      ("oneOf", partRef "schemaArray"),
      ("not", anySchema)]

/-- Keywords for parts that nothing else has judged. -/
def unevaluatedVocabulary : Value :=
  vocabulary [("unevaluatedItems", anySchema), ("unevaluatedProperties", anySchema)]

/-- Keywords that judge a value by itself. -/
def validationVocabulary : Value :=
  vocabulary
    [("type", schemaOf [("anyOf", .list
        [partRef "simpleTypes",
          schemaOf [("type", .str "array"), ("items", partRef "simpleTypes"), ("minItems", .int 1),
            ("uniqueItems", .bool true)]])]),
      ("const", .bool true),
      ("enum", schemaOf [("type", .str "array"), ("items", .bool true)]),
      ("multipleOf", schemaOf [("type", .str "number"), ("exclusiveMinimum", .int 0)]),
      ("maximum", ofType "number"),
      ("exclusiveMaximum", ofType "number"),
      ("minimum", ofType "number"),
      ("exclusiveMinimum", ofType "number"),
      ("maxLength", partRef "nonNegativeInteger"),
      ("minLength", partRef "nonNegativeInteger"),
      ("pattern", schemaOf [("type", .str "string"), ("format", .str "regex")]),
      ("maxItems", partRef "nonNegativeInteger"),
      ("minItems", partRef "nonNegativeInteger"),
      ("uniqueItems", ofType "boolean"),
      ("maxContains", partRef "nonNegativeInteger"),
      ("minContains", partRef "nonNegativeInteger"),
      ("maxProperties", partRef "nonNegativeInteger"),
      ("minProperties", partRef "nonNegativeInteger"),
      ("required", partRef "stringArray"),
      ("dependentRequired", objectOf (partRef "stringArray"))]

/-- Keywords that only describe. -/
def annotationVocabulary : Value :=
  vocabulary
    [("title", ofType "string"),
      ("description", ofType "string"),
      ("default", .bool true),
      ("deprecated", ofType "boolean"),
      ("readOnly", ofType "boolean"),
      ("writeOnly", ofType "boolean"),
      ("examples", schemaOf [("type", .str "array"), ("items", .bool true)])]

/-- The keyword for formats. -/
def formatVocabulary : Value := vocabulary [("format", ofType "string")]

/-- Keywords for strings that hold other content. -/
def contentVocabulary : Value :=
  vocabulary
    [("contentEncoding", ofType "string"),
      ("contentMediaType", ofType "string"),
      ("contentSchema", anySchema)]

/-- The parts that vocabularies share. -/
def sharedParts : List (String × Value) :=
  [("anchorString", schemaOf [("type", .str "string"), ("pattern", .str "^[A-Za-z_][-A-Za-z0-9._]*$")]),
    ("uriString", schemaOf [("type", .str "string"), ("format", .str "uri")]),
    ("uriReferenceString", schemaOf [("type", .str "string"), ("format", .str "uri-reference")]),
    ("schemaArray", schemaOf [("type", .str "array"), ("minItems", .int 1), ("items", anySchema)]),
    ("nonNegativeInteger", schemaOf [("type", .str "integer"), ("minimum", .int 0)]),
    ("simpleTypes", schemaOf [("enum", .list [.str "array", .str "boolean", .str "integer", .str "null",
      .str "number", .str "object", .str "string"])]),
    ("stringArray", schemaOf [("type", .str "array"), ("items", ofType "string"),
      ("uniqueItems", .bool true)])]

/-- The schema of schemas. -/
def metaSchema : Value :=
  schemaOf
    [("allOf", .list [coreVocabulary, applicatorVocabulary, unevaluatedVocabulary, validationVocabulary,
        annotationVocabulary, formatVocabulary, contentVocabulary]),
      ("type", .list [.str "object", .str "boolean"]),
      ("properties", .object
        [("definitions", objectOf anySchema),
          ("dependencies", objectOf (schemaOf [("anyOf", .list [anySchema, partRef "stringArray"])])),
          ("$recursiveAnchor", partRef "anchorString"),
          ("$recursiveRef", partRef "uriReferenceString")]),
      ("$defs", .object sharedParts)]

/-- How documents are judged as schemas. The schema of schemas refers to schemas only. -/
def metaManner : Manner := ⟨true, fun _ => none⟩

/-- All failures of a document as a schema. -/
def documentFailures (document : Value) : List Failure :=
  -- references lead into the schema of schemas and not into the document
  failuresWithin metaSchema metaManner (budgetFor metaSchema document) metaSchema document

/-- What is wrong with a document as a schema, if anything: its first failure. -/
def checkDocument? (document : Value) : Option String :=
  (documentFailures document).head?.map (·.message)

/-! ## Judging by documents -/

/-- How values are judged by documents. Where a document has been checked, only its references lead to values that have
not been. They must lead to schemas: what is no schema is not judged by at all, not even where the value in question has
nothing to do with its flaw. -/
def documentManner : Manner := ⟨false, checkDocument?⟩

/-- The failures of a value under a whole document, in the order of the keywords. -/
def failures (root v : Value) : List Failure :=
  failuresWithin root documentManner (budgetFor root v) root v

end SnippetAudit.Schema
