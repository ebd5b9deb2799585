import SnippetAudit.Component.Usage
import SnippetAudit.Numeric.Numeral
import SnippetAudit.Syntax.Node

/-!
# Literals

Attribute values are decoded only where they are literals through and through: strings, templates without
substitutions, numbers with an optional sign, truth values, null, and lists and objects of literals.
Anything else is an expression and keeps its source.

## What this module delivers

- `literal?`: the value of a literal;
- `decode`: the value of a literal, or the expression;
- `keyOf?`: the name of an object member;
- `numberFromText`: a string that is a number by contract.
-/

set_option autoImplicit false

namespace SnippetAudit.Component

open Syntax

/-- The value of a number. -/
def ofNumber : Number → Value
  | .int n => .int n
  | .float x => .float x

/-- A text without its first and its last character. -/
def unquoted (t : Text) : Text := (t.drop 1).dropLast

/-- The string between the quotes of a node. -/
def quotedText (n : Node) (source : Octets) : String := String.ofList (unquoted (n.text source))

/-- A node in words the grammar does not need. -/
def isComment (n : Node) : Bool := n.kind == "comment"

/-- The named children that are no comments. -/
def parts (n : Node) : List Node := n.namedChildren.filter fun child => !isComment child

/-- The name of an object member by its key: a name, a number or a string. -/
def keyOf? (key : Node) (source : Octets) : Option String :=
  if ["property_identifier", "identifier", "number"].contains key.kind then
    some (String.ofList (key.text source))
  else if key.kind = "string" then some (quotedText key source)
  else none

/-- The value of a number with a sign before it; other signs than plus and minus make no literal. -/
def signedNumber? (n : Node) (source : Octets) : Option Value := do
  let sign ← n.childByField? "operator"
  let argument ← n.childByField? "argument"
  if argument.kind != "number" then none
  else
    let number ← Number.read? (argument.text source)
    match sign.text source with
    | ['-'] => some (ofNumber number.negate)
    | ['+'] => some (ofNumber number)
    | _ => none

/-- The value of a literal that holds no other literals. -/
def simpleLiteral? (n : Node) (source : Octets) : Option Value :=
  match n.kind with
  | "string" => some (.str (quotedText n source))
  | "template_string" =>
    if n.namedChildren.any fun child => child.kind == "template_substitution" then none
    else some (.str (quotedText n source))
  | "number" => (Number.read? (n.text source)).map ofNumber
  | "true" => some (.bool true)
  | "false" => some (.bool false)
  | "null" => some .null
  | "unary_expression" => signedNumber? n source
  | _ => none

mutual

/-- The value of a literal. -/
def literal? (source : Octets) : Node → Option Value
  | ⟨kind, isNamed, isMissing, hasError, start, stop, field, children⟩ =>
    match kind with
    | "parenthesized_expression" =>
      -- a remark beside the expression counts as a second part
      if (children.filter (·.isNamed)).length = 1 then firstNamedLiteral? source children else none
    | "array" => (itemLiterals? source children).map .list
    | "object" => (memberLiterals? source children).map fun pairs => .object (Members.ofPairs pairs)
    | kind => simpleLiteral? ⟨kind, isNamed, isMissing, hasError, start, stop, field, children⟩ source

/-- The value of the first child that has a name. -/
def firstNamedLiteral? (source : Octets) : List Node → Option Value
  | [] => none
  | n :: rest => if n.isNamed then literal? source n else firstNamedLiteral? source rest

/-- The values of all items of a list. -/
def itemLiterals? (source : Octets) : List Node → Option (List Value)
  | [] => some []
  | n :: rest =>
    if !n.isNamed || isComment n then itemLiterals? source rest
    else
      match literal? source n with
      | some value => (itemLiterals? source rest).map (value :: ·)
      | none => none

/-- The names and values of all members of an object. A pair without a key or a value makes no literal; the
parser gives no such pair. -/
def memberLiterals? (source : Octets) : List Node → Option (List (String × Value))
  | [] => some []
  | ⟨kind, isNamed, isMissing, hasError, start, stop, field, children⟩ :: rest =>
    if !isNamed || kind == "comment" then memberLiterals? source rest
    -- a spread, a method or a name alone makes no literal
    else if kind != "pair" then none
    else
      let pair : Node := ⟨kind, isNamed, isMissing, hasError, start, stop, field, children⟩
      match (pair.childByField? "key").bind (keyOf? · source), valueLiteral? source children with
      | some name, some value => (memberLiterals? source rest).map ((name, value) :: ·)
      | _, _ => none

/-- The value of the first child in the value field. -/
def valueLiteral? (source : Octets) : List Node → Option Value
  | [] => none
  | n :: rest => if n.field == some "value" then literal? source n else valueLiteral? source rest

end

/-- The value of a literal, or the expression. -/
def decode (n : Node) (source : Octets) : Value :=
  (literal? source n).getD (.expr (String.ofList (n.text source)))

/-- A string literal of an attribute: a number where the attribute is one by contract and the string is
a numeral. -/
def numberFromText (rules : WalkRules) (name : String) (content : String) : Value :=
  let trimmed := Text.trim content.toList
  let number := if trimmed.isEmpty then none else Number.read? trimmed
  if rules.numeric.contains name then (number.map ofNumber).getD (.str content) else .str content

end SnippetAudit.Component
