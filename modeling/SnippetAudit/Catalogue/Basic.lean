import SnippetAudit.GraphQL.Introspection
import SnippetAudit.Gzip.Stream
import SnippetAudit.Json.Reader
import SnippetAudit.Text.Utf8

/-!
# Catalogues of schemas

A catalogue lists the names of the schemas it has and loads the introspection document of each. Listing and
loading are separate: what is listed may still turn out to be no document.

## What this module delivers

- `Catalogue`: the names listed, and loading by name;
- `PairingError`, `pairingError?`: why values are no pairs of a name and a part;
- `LoadError`: why a document cannot be loaded;
- `describing`: the document that a value holds;
- `Catalogue.schema`: the schema of a name.
-/

set_option autoImplicit false

namespace SnippetAudit

open GraphQL

/-! ## Lists of pairs -/

/-- Why values are no pairs, by the place of the first that is none. -/
inductive PairingError where
  /-- The value has no parts. -/
  | indivisible (place : Nat)
  /-- The value has another number of parts than two. -/
  | uneven (place length : Nat)
  /-- The first part is of a type that is no name. -/
  | unnamed (type : String)
  deriving Repr, DecidableEq

/-- The wording of the errors. -/
def PairingError.message : PairingError → String
  | .indivisible place => "cannot convert dictionary update sequence element #" ++ toString place ++ " to a sequence"
  | .uneven place length => "dictionary update sequence element #" ++ toString place ++ " has length " ++
      toString length ++ "; 2 is required"
  | .unnamed type => "unhashable type: '" ++ type ++ "'"

/-- The parts that a value is taken apart into: items, names of members, or characters. -/
def partsOf? : Value → Option (List Value)
  | .list items => some items
  | .object members => some (members.map fun (name, _) => .str name)
  | .str s => some (s.toList.map fun c => .str (String.singleton c))
  | _ => none

/-- What is wrong with values as pairs, the first of them having the given number. -/
def pairingError? (place : Nat) : List Value → Option PairingError
  | [] => none
  | v :: rest =>
    match partsOf? v with
    | none => some (.indivisible place)
    | some [.list _, _] => some (.unnamed "list")
    | some [.object _, _] => some (.unnamed "dict")
    | some [_, _] => pairingError? (place + 1) rest
    | some parts => some (.uneven place parts.length)

/-! ## Loading -/

/-- Why no schema can be loaded by a name. -/
inductive LoadError where
  /-- The catalogue has no document of this name. -/
  | unsupported (name : String)
  /-- The document is not packed as its place promises. -/
  | unpackable (e : Gzip.StreamError)
  /-- The document is no text. -/
  | unreadable (e : Octets.DecodeError)
  /-- The document is no JSON. -/
  | malformed (e : JsonError)
  /-- The document is a value without parts. -/
  | indivisible (v : Value)
  /-- The document is a list or a string, and is asked for a member. -/
  | unindexed (v : Value)
  /-- The document is a list or a string, and does not make up an object. -/
  | unpaired (e : PairingError)
  /-- The document describes no schema. -/
  | undescribed (e : IntrospectionError)

/-- The wording of the errors. -/
def LoadError.message : LoadError → String
  | .unsupported name => name
  | .unpackable e => e.message
  | .unreadable e => e.message
  | .malformed e => e.message
  | .indivisible v => "argument of type '" ++ v.typeName ++ "' is not iterable"
  | .unindexed (.list _) => "list indices must be integers or slices, not str"
  | .unindexed _ => "string indices must be integers, not 'str'"
  | .unpaired e => e.message
  | .undescribed e => e.message

/-- Why a list or a string holds no document, by whether it contains a name. -/
def refusalOf (v : Value) (contains : String → Bool) : LoadError :=
  if contains "data" then .unindexed v
  else if contains "__schema" then
    match pairingError? 0 ((partsOf? v).getD []) with
    | some e => .unpaired e
    -- there is always such an error, since the name that has been found is no pair
    | none => .undescribed .noDescription
  else .undescribed .noDescription

/-- The document that a value holds. Only an object has one. -/
def describing : Value → Except LoadError (Members Value)
  | .object document => (unwrap document).mapError .undescribed
  | .list items => .error (refusalOf (.list items) fun name => items.any fun item => item.string? == some name)
  | .str s => .error (refusalOf (.str s) fun name => (Text.afterFirst? name.toList s.toList).isSome)
  | v => .error (.indivisible v)

/-- Schemas by name. -/
structure Catalogue where
  /-- The names that are listed, in order. -/
  supported : List String
  /-- The introspection document of a name. -/
  load : String → Except LoadError (Members Value)

namespace Catalogue

/-- The schema of a name. -/
def schema (c : Catalogue) (name : String) : Except LoadError Schema :=
  match c.load name with
  | .error e => .error e
  | .ok document => (Schema.ofIntrospection document).mapError .undescribed

end Catalogue

end SnippetAudit
