import SnippetAudit.Schema.MetaSchema

/-!
# Structural schemas

A structural schema is a component's contract: a schema document for the object of its attributes. In
strict mode, the usual one, the object is closed: every attribute that the document does not declare is a
violation of its own, and so is every required attribute that is missing.

## What this module delivers

- `Violation` and its wording;
- `StructuralSchema`, `StructuralSchema.ofDocument`: contracts, from documents that are schemas;
- `effective`: the document that attributes are judged by;
- `isDeclared`, `declaredAttributes`: the attributes that a document speaks of;
- `breakdown?`: why attributes cannot be judged;
- `violations`, `judge`: what attributes violate.
-/

set_option autoImplicit false

namespace SnippetAudit.Schema

/-- A violation of a contract. -/
structure Violation where
  /-- The place in the attributes. -/
  path : String
  message : String
  /-- The attribute that it concerns, if it concerns one. -/
  concerns : Option String
  deriving Repr, DecidableEq

namespace Violation

/-- A violation in words. -/
def text (v : Violation) : String := "Property '" ++ v.path ++ "': " ++ v.message

/-- The message for an attribute that is not declared. -/
def undeclaredMessage : String := "attribute is not declared by the schema"

/-- The message for a required attribute that is missing. -/
def missingMessage : String := "required attribute is missing"

/-- An attribute that is not declared. -/
def undeclared (name : String) : Violation := ⟨name, undeclaredMessage, name⟩

/-- A required attribute that is missing. -/
def missing (name : String) : Violation := ⟨name, missingMessage, name⟩

/-- A violation by the value of an attribute, and not by its being there or not. -/
def concernsValue (v : Violation) : Bool :=
  v.message != undeclaredMessage && v.message != missingMessage

/-- A failure at a place, as a violation of the attribute it lies in. -/
def ofFailure (f : Failure) : Violation :=
  let path := ".".intercalate f.pathTexts
  ⟨if path = "" then "root" else path, f.message, f.pathTexts.head?⟩

end Violation

/-- Why a value is no contract. -/
inductive SchemaRefusal where
  /-- The document is no schema, for the given reason. -/
  | malformed (reason : String)
  /-- The document is a schema, but no object of keywords. -/
  | notKeywords (type : String)
  /-- The value is neither a document nor something that judges attributes. -/
  | notDocument (type : String)
  deriving Repr, DecidableEq

/-- The wording of the refusals. -/
def SchemaRefusal.message : SchemaRefusal → String
  | .malformed reason => reason
  | .notKeywords type => "'" ++ type ++ "' object is not iterable"
  | .notDocument type =>
    "Expected a JSON Schema mapping or an object with validate(), got " ++ type

/-- A component's contract. -/
structure StructuralSchema where
  document : Members Value
  strict : Bool := true

namespace StructuralSchema

/-- The contract of a document, which must be a schema. -/
def ofDocument (document : Value) (strict : Bool) : Except SchemaRefusal StructuralSchema :=
  match checkDocument? document with
  | some reason => .error (.malformed reason)
  | none =>
    match document with
    | .object members => .ok ⟨members, strict⟩
    | other => .error (.notKeywords other.typeName)

/-- The contract of a value submitted as one. -/
def ofValue (v : Value) : Except SchemaRefusal StructuralSchema :=
  match v with
  | .object _ => ofDocument v true
  | other => .error (.notDocument other.typeName)

/-- The members of a keyword's argument in the document. -/
def argument (s : StructuralSchema) (keyword : String) : Members Value :=
  membersOf ((s.document.get? keyword).getD .null)

/-- The document closes its object, or has a schema for attributes that it does not declare. -/
def hasOwnClosing (document : Members Value) : Bool :=
  match document.get? "additionalProperties" with
  | some (.object _) => true
  | _ => false

/-- The document that attributes are judged by: in strict mode no attributes are allowed beyond the
declared ones, unless the document has a schema for them. -/
def effective (s : StructuralSchema) : Members Value :=
  if s.strict && !hasOwnClosing s.document then s.document.put "additionalProperties" (.bool false)
  else s.document

/-- The names of the declared attributes, in order. -/
def declaredAttributes (s : StructuralSchema) : List String :=
  Sorted.sortStrings (s.argument "properties").names

/-- The attribute is declared by name or by an expression for names. -/
def isDeclared (s : StructuralSchema) (name : String) : Bool :=
  (s.argument "properties").has name ||
    (s.argument "patternProperties").names.any fun expression => isFound expression name

/-- The failures of attributes, in the order of their places. -/
def failures (s : StructuralSchema) (attributes : Members Value) : List Failure :=
  sortByPath (Schema.failures (.object s.effective) (.object attributes))

/-- Why attributes cannot be judged, if judging them breaks down. -/
def breakdown? (s : StructuralSchema) (attributes : Members Value) : Option Breakdown :=
  firstBreakdown? (Schema.failures (.object s.effective) (.object attributes))

/-- The attributes that are not declared, in order. -/
def undeclaredNames (s : StructuralSchema) (attributes : Members Value) : List String :=
  Sorted.sortStrings (attributes.names.filter fun name => !s.isDeclared name)

/-- A name in words; what is no string is told as messages show it. -/
def nameText (name : Value) : String := name.string?.getD name.text

/-- The required names that are no attributes. -/
def missingNames (names : List Value) (attributes : Members Value) : List Value :=
  names.filter fun name => !hasMember attributes name

/-- The violations that failures tell, where `reported` are the names reported as undeclared or missing before:
each name is reported once. -/
def violationsFrom (s : StructuralSchema) (attributes : Members Value) (reported : List Value) :
    List Failure → List Violation
  | [] => []
  | f :: rest =>
    match f.path, f.rule with
    -- the undeclared names are those of the whole document, wherever the failure comes from
    | [], .additionalProperties =>
      let names := valuesBeyond reported ((s.undeclaredNames attributes).map .str)
      names.map (Violation.undeclared ∘ nameText) ++ violationsFrom s attributes (names ++ reported) rest
    -- the missing names are those of the rule that failed
    | [], .required required =>
      let names := valuesBeyond reported (missingNames required attributes)
      names.map (Violation.missing ∘ nameText) ++ violationsFrom s attributes (names ++ reported) rest
    | _, _ => Violation.ofFailure f :: violationsFrom s attributes reported rest

/-- What attributes violate, as far as their failures tell of violations and not of a breakdown. -/
def violations (s : StructuralSchema) (attributes : Members Value) : List Violation :=
  s.violationsFrom attributes [] (s.failures attributes)

/-- What attributes violate, or why they cannot be judged. -/
def judge (s : StructuralSchema) (attributes : Members Value) : Except Breakdown (List Violation) :=
  match s.breakdown? attributes with
  | some cause => .error cause
  | none => .ok (s.violations attributes)

theorem judge_eq_ok_iff {s : StructuralSchema} {attributes : Members Value} {told : List Violation} :
    s.judge attributes = .ok told ↔ s.breakdown? attributes = none ∧ s.violations attributes = told := by
  rw [judge]
  cases s.breakdown? attributes <;> simp

/-- A contract in words. -/
def text (s : StructuralSchema) : String :=
  "StructuralSchema(attributes=" ++ Value.text (.list (s.declaredAttributes.map .str)) ++
    ", strict=" ++ Value.text (.bool s.strict) ++ ")"

end StructuralSchema

end SnippetAudit.Schema
