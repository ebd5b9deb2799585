import SnippetAudit.Data.Value
import SnippetAudit.Numeric.Numeral
import SnippetAudit.Text.Percent

/-!
# References

A reference leads to a part of the document that it stands in: to the document itself, along a pointer, or to the
schema that carries an anchor. It may start with the document's own identifier.

References into other documents are not followed, be they schemas of schemas or documents from elsewhere. Nor are
those of a document that has identifiers inside, which make it several documents in one. Such references are told as
lost. A subschema that names a dialect of its own is read like all others.

## What this module delivers

- `Lost`: why a reference leads nowhere;
- `splitAt`, `unescapeStep`, `index?`: the steps of a pointer;
- `findAnchor?`: the schema with an anchor;
- `resolve`: the part of a document that a reference leads to.
-/

set_option autoImplicit false

namespace SnippetAudit.Schema

/-- Why a reference leads nowhere: the kind of the loss, if it is one of references, and the words. -/
structure Lost where
  kind : Option String
  words : String
  deriving Repr, DecidableEq

/-- The loss as the message of a reference that is to be judged by. -/
def Lost.text (l : Lost) : String :=
  match l.kind with
  | some kind => kind ++ ": " ++ l.words
  | none => l.words

/-! ## Pointers -/

/-- The pieces of a text between marks. -/
def splitAt (mark : Char) : Text → List Text
  | [] => [[]]
  | c :: rest =>
    if c = mark then [] :: splitAt mark rest
    else
      match splitAt mark rest with
      | [] => [[c]]
      | piece :: more => (c :: piece) :: more

/-- One step of a pointer with its escapes resolved. -/
def unescapeStep : Text → Text
  | '~' :: '1' :: rest => '/' :: unescapeStep rest
  | '~' :: '0' :: rest => '~' :: unescapeStep rest
  | c :: rest => c :: unescapeStep rest
  | [] => []

/-- The whole number that a step into a list is; single underscores may stand between digits. -/
def index? (step : Text) : Option Int :=
  let (negative, digits) := Numeral.splitSign (Numeral.unpad step)
  let groups := splitAt '_' digits
  if groups.any (·.isEmpty) ∨ Numeral.maxDecimalDigits < groups.flatten.length then none
  else (Numeral.readDigits? 10 groups.flatten).map fun n => if negative then -(n : Int) else (n : Int)

/-- The item that a step leads to; below zero, items are counted from the end. -/
def itemAt {α : Type} (lost : Lost) (items : List α) (step : Text) : Except Lost α :=
  match index? step with
  | none => .error ⟨none, "invalid literal for int() with base 10: " ++ Text.quoteString (String.ofList step)⟩
  | some i =>
    let place := if i < 0 then i + items.length else i
    match (if place < 0 then none else items[place.toNat]?) with
    | some item => .ok item
    | none => .error lost

/-- The part of a value that the steps of a pointer lead to. -/
def followSteps (lost : Lost) (v : Value) : List Text → Except Lost Value
  | [] => .ok v
  | step :: rest =>
    match v with
    | .object members =>
      match Members.get? members (String.ofList (unescapeStep step)) with
      | some part => followSteps lost part rest
      | none => .error lost
    | .list items =>
      match itemAt lost items step with
      | .ok item => followSteps lost item rest
      | .error e => .error e
    -- a string has characters, but none of them is a schema
    | .str s => (itemAt lost s.toList step).bind fun _ => .error ⟨none, "'str' object has no attribute 'items'"⟩
    | other => .error ⟨none, "'" ++ other.typeName ++ "' object is not subscriptable"⟩

/-! ## Anchors -/

/-- The keywords whose argument is a schema. -/
def schemaKeywords : List String :=
  ["additionalProperties", "contains", "contentSchema", "else", "if", "items", "not", "propertyNames", "then",
    "unevaluatedItems", "unevaluatedProperties"]

/-- The keywords whose argument has schemas as its items. -/
def schemaListKeywords : List String := ["allOf", "anyOf", "oneOf", "prefixItems"]

/-- The keywords whose argument has schemas as its members. -/
def schemaMapKeywords : List String :=
  ["$defs", "definitions", "dependentSchemas", "patternProperties", "properties"]

/-- The schema carries an anchor of the name. -/
def carriesAnchor (name : String) (schema : Members Value) : Bool :=
  ["$anchor", "$dynamicAnchor"].any fun keyword => (schema.get? keyword).any fun v => v.string? == some name

mutual

/-- The schema that carries an anchor of the name: a schema inside of a schema, before that schema itself. -/
def findAnchor? (name : String) : Value → Option Value
  | .object members =>
    (findAnchorInKeywords? name members).or
      (if carriesAnchor name members then some (.object members) else none)
  | _ => none

/-- The schema that carries an anchor of the name in the arguments of keywords. -/
def findAnchorInKeywords? (name : String) : List (String × Value) → Option Value
  | [] => none
  | (keyword, arg) :: rest =>
    let here :=
      if schemaKeywords.contains keyword then findAnchor? name arg
      else if schemaListKeywords.contains keyword then findAnchorInList? name arg
      else if schemaMapKeywords.contains keyword then findAnchorInMap? name arg
      else none
    here.or (findAnchorInKeywords? name rest)

/-- The schema that carries an anchor of the name in the items of an argument. -/
def findAnchorInList? (name : String) : Value → Option Value
  | .list items => findAnchorInItems? name items
  | _ => none

/-- The schema that carries an anchor of the name in the members of an argument. -/
def findAnchorInMap? (name : String) : Value → Option Value
  | .object members => findAnchorInMembers? name members
  | _ => none

/-- The schema that carries an anchor of the name in some items. -/
def findAnchorInItems? (name : String) : List Value → Option Value
  | [] => none
  | item :: rest => (findAnchor? name item).or (findAnchorInItems? name rest)

/-- The schema that carries an anchor of the name in some members. -/
def findAnchorInMembers? (name : String) : List (String × Value) → Option Value
  | [] => none
  | (_, value) :: rest => (findAnchor? name value).or (findAnchorInMembers? name rest)

end

/-! ## Identifiers -/

/-- The identifier that a member of a schema gives, without the number signs at its end. -/
def identifierOf (name : String) (value : Value) : Text :=
  match value with
  | .str s => if name = "$id" then Text.dropEndWhile (· == '#') s.toList else []
  | _ => []

mutual

/-- A value has an identifier in it. -/
def holdsIdentifier : Value → Bool
  | .object members => membersHoldIdentifier members
  | .list items => itemsHoldIdentifier items
  | _ => false

/-- Some members have an identifier among them or in one of them. -/
def membersHoldIdentifier : List (String × Value) → Bool
  | [] => false
  | (name, value) :: rest =>
    !(identifierOf name value).isEmpty || holdsIdentifier value || membersHoldIdentifier rest

/-- Some items have an identifier in one of them. -/
def itemsHoldIdentifier : List Value → Bool
  | [] => false
  | item :: rest => holdsIdentifier item || itemsHoldIdentifier rest

end

/-- A document has identifiers inside, besides its own. -/
def isDivided (root : Value) : Bool := (membersHoldIdentifier ((root.members?.getD []).filter (·.1 != "$id")))

/-- How identifiers start that mean the same wherever they stand. -/
def identifierStarts : List Text := ["http://".toList, "https://".toList, "urn:".toList]

/-- A document's own identifier, if it is one that means the same wherever it stands. -/
def ownIdentifier? (root : Value) : Option Text :=
  ((root.member? "$id").map (identifierOf "$id")).filter fun own => identifierStarts.any (·.isPrefixOf own)

/-- What a reference says about the place in the document, if it is one into the document. -/
def fragment? (root : Value) (reference : Text) : Option Text :=
  let behind (t : Text) : Option Text :=
    match t with
    | [] => some []
    | '#' :: name => some name
    | _ => none
  (behind reference).or
    ((ownIdentifier? root).bind fun own =>
      if own.isPrefixOf reference then behind (reference.drop own.length) else none)

/-! ## Where references lead -/

/-- The words for a place that does not exist in a document. -/
def nowhereText (root : Value) (place : Text) : String :=
  Text.quoteString (String.ofList place) ++ " does not exist within " ++ root.text

/-- The words for a pointer that leads nowhere. -/
def lostPointer (root : Value) (pointer : Text) : Lost :=
  let hint :=
    if pointer = ['/'] then
      ". The pointer '/' is a valid JSON Pointer but it points to an empty string property ''. If you " ++
        "intended to point to the entire resource, you should use '#'."
    else ""
  ⟨some "PointerToNowhere", nowhereText root pointer ++ hint⟩

/-- The words for an anchor that no schema carries. -/
def lostAnchor (root : Value) (name : Text) : Lost :=
  if name.contains '/' then
    let shownName := String.ofList name
    ⟨some "InvalidAnchor", "'#" ++ shownName ++ "' is not a valid anchor, neither as a plain name anchor nor as a " ++
      "JSON Pointer. You may have intended to use '#/" ++ shownName ++ "', as the slash is required *before each " ++
      "segment* of a JSON pointer."⟩
  else ⟨some "NoSuchAnchor", nowhereText root name⟩

/-- The part of a document that a reference leads to, or why it leads nowhere. -/
def resolve (root : Value) (reference : String) : Except Lost Value :=
  let elsewhere : Except Lost Value := .error ⟨some "Unresolvable", reference⟩
  if isDivided root then elsewhere
  else
    match fragment? root reference.toList with
    | none => elsewhere
    | some [] => .ok root
    | some ('/' :: pointer) =>
      followSteps (lostPointer root ('/' :: pointer)) root (splitAt '/' (Text.unquote pointer))
    | some name =>
      match findAnchor? (String.ofList name) root with
      | some schema => .ok schema
      | none => .error (lostAnchor root name)

end SnippetAudit.Schema
