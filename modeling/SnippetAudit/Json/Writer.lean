import SnippetAudit.Data.Value

/-!
# Writing JSON

A value is written as JSON either on one line or with one item or member to a line, each level two
spaces further in. Characters beyond ASCII are written as they are.

## What this module delivers

- `Json.quote`: a string between double quotes;
- `Json.compact`: a value on one line;
- `Json.indented`: a value with one item to a line.
-/

set_option autoImplicit false

namespace SnippetAudit.Json

/-- One character as it stands in a JSON string. -/
def escapeChar (c : Char) : Text :=
  if c = '"' ∨ c = '\\' then ['\\', c]
  else if c = '\n' then ['\\', 'n']
  else if c = '\r' then ['\\', 'r']
  else if c = '\t' then ['\\', 't']
  else if c.toNat = 8 then ['\\', 'b']
  else if c.toNat = 12 then ['\\', 'f']
  else if c.toNat < 0x20 then '\\' :: 'u' :: Text.hexDigits 4 c.toNat
  else [c]

/-- A string between double quotes. -/
def quote (s : String) : String :=
  "\"" ++ String.ofList (s.toList.flatMap escapeChar) ++ "\""

/-- A floating-point number; the three that are no decimal have names. -/
def floatText : Binary64 → String
  | .nan => "NaN"
  | .infinite negative => if negative then "-Infinity" else "Infinity"
  | x => x.text

/-- A value without items and members. -/
def plainText : Value → String
  | .bool b => if b then "true" else "false"
  | .int n => toString n
  | .float x => floatText x
  | .str s => quote s
  | .expr source => quote source
  | _ => "null"

mutual

/-- A value on one line. -/
def compact : Value → String
  | .list items => "[" ++ ", ".intercalate (compactItems items) ++ "]"
  | .object members => "\x7b" ++ ", ".intercalate (compactMembers members) ++ "\x7d"
  | other => plainText other

/-- Each item of a list on one line. -/
def compactItems : List Value → List String
  | [] => []
  | item :: rest => compact item :: compactItems rest

/-- Each member of an object on one line. -/
def compactMembers : List (String × Value) → List String
  | [] => []
  | (name, value) :: rest => (quote name ++ ": " ++ compact value) :: compactMembers rest

end

/-- The start of a line `level` levels in. -/
def lineStart (level : Nat) : String := String.ofList ('\n' :: List.replicate (2 * level) ' ')

/-- The parts of a list or an object, one to a line, between its brackets. -/
def bracket (opening closing : String) (level : Nat) (parts : List String) : String :=
  if parts.isEmpty then opening ++ closing
  else
    opening ++ lineStart (level + 1) ++ ("," ++ lineStart (level + 1)).intercalate parts ++
      lineStart level ++ closing

mutual

/-- A value with one item to a line, at the given level. -/
def indentedAt (level : Nat) : Value → String
  | .list items => bracket "[" "]" level (indentedItems (level + 1) items)
  | .object members => bracket "\x7b" "\x7d" level (indentedMembers (level + 1) members)
  | other => plainText other

/-- Each item of a list, at the given level. -/
def indentedItems (level : Nat) : List Value → List String
  | [] => []
  | item :: rest => indentedAt level item :: indentedItems level rest

/-- Each member of an object, at the given level. -/
def indentedMembers (level : Nat) : List (String × Value) → List String
  | [] => []
  | (name, value) :: rest =>
    (quote name ++ ": " ++ indentedAt level value) :: indentedMembers level rest

end

/-- A value with one item or member to a line. -/
def indented (v : Value) : String := indentedAt 0 v

end SnippetAudit.Json
