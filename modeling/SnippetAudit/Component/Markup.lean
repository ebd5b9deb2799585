import SnippetAudit.Component.Literal

/-!
# Markup elements

An opening or self-closing element is a usage of its tag. An attribute without a value is true; a string
is taken as it is, or as a number where the attribute is one by contract; a value in braces is decoded.

## What this module delivers

- `markupUsage?`: the usage of an element.
-/

set_option autoImplicit false

namespace SnippetAudit.Component

open Syntax

/-- The types of the nodes that use a component by markup. -/
def elementKinds : List String := ["jsx_opening_element", "jsx_self_closing_element"]

/-- The text behind the last occurrence of a character. -/
def afterLast (mark : Char) (t : Text) : Text := (t.reverse.takeWhile (· != mark)).reverse

/-- The tag of an element, without the namespace or the object that it is a member of; a fragment has
none. -/
def elementTag? (element : Node) (source : Octets) : Option Text :=
  (element.childByField? "name").map fun name =>
    let t := Text.trim (name.text source)
    if name.kind = "jsx_namespace_name" then afterLast ':' t
    else if name.kind = "member_expression" ∨ name.kind = "nested_identifier" then afterLast '.' t
    else t

/-- The value of an attribute from the node behind its name. -/
def attributeValue (rules : WalkRules) (source : Octets) (name : String) (value : Node) : Value :=
  if value.kind = "string" then numberFromText rules name (quotedText value source)
  else if value.kind = "jsx_expression" then
    match parts value with
    -- braces around a single part hold that part; anything else in them is an expression
    | [inner] => decode inner source
    | _ => .expr (String.ofList (Text.trim (unquoted (value.text source))))
  else .expr (String.ofList (value.text source))

/-- The name and the value of an attribute; an attribute without parts is none. -/
def attribute? (rules : WalkRules) (source : Octets) (n : Node) : Option (String × Value) :=
  match parts n with
  | [] => none
  | first :: rest =>
    let name := String.ofList (first.text source)
    -- of several parts the last one is the value
    match rest.getLast? with
    | none => some (name, .bool true)
    | some value => some (name, attributeValue rules source name value)

/-- The attributes of an element; spreads are passed over. -/
def elementAttributes (rules : WalkRules) (source : Octets) (element : Node) : Members Value :=
  Members.ofPairs <|
    (element.namedChildren.filter (·.kind == "jsx_attribute")).filterMap (attribute? rules source)

/-- A tag that may be a component's: not empty and no plain markup. -/
def isComponentTag (rules : WalkRules) (tag : String) : Bool :=
  tag != "" && !rules.ignored.contains tag

/-- The usage of an element. -/
def markupUsage? (rules : WalkRules) (source : Octets) (element : Node) : Option Usage := do
  let tag := String.ofList (← elementTag? element source)
  if isComponentTag rules tag then
    some ⟨tag, elementAttributes rules source element, element.text source⟩
  else none

end SnippetAudit.Component
