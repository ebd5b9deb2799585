import SnippetAudit.Component.Markup

/-!
# Factory calls

Calling a member that creates components is a usage too: its first argument names the component, and an
object as its second argument gives the attributes. A second argument of another kind gives none.

## What this module delivers

- `factoryUsage?`: the usage of a call.
-/

set_option autoImplicit false

namespace SnippetAudit.Component

open Syntax

/-- The name and the value of an object member; a member whose name is computed is passed over. So is a pair without a
key or a value, and a method without a name; the parser gives no such members. -/
def memberAttribute? (source : Octets) (n : Node) : Option (String × Value) :=
  if n.kind = "pair" then do
    let name ← (n.childByField? "key").bind (keyOf? · source)
    let value ← n.childByField? "value"
    some (name, decode value source)
  else if n.kind = "shorthand_property_identifier" then
    let name := String.ofList (n.text source)
    some (name, .expr name)
  else if n.kind = "method_definition" then do
    let name ← n.childByField? "name"
    some (String.ofList (name.text source), .expr (String.ofList (n.text source)))
  else none

/-- The attributes that an object gives. -/
def objectAttributes (source : Octets) (n : Node) : Members Value :=
  Members.ofPairs (n.namedChildren.filterMap (memberAttribute? source))

/-- The call is a call of a member that creates components. -/
def isFactoryCall (rules : WalkRules) (source : Octets) (call : Node) : Bool :=
  match call.childByField? "function" with
  | none => false
  | some callee =>
    callee.kind == "member_expression" &&
      match callee.childByField? "property" with
      | none => false
      | some member => rules.factories.contains (String.ofList (member.text source))

/-- The tag that a first argument names: an identifier or a string. -/
def argumentTag? (source : Octets) (n : Node) : Option String :=
  if n.kind = "identifier" then some (String.ofList (n.text source))
  else if n.kind = "string" then some (quotedText n source)
  else none

/-- The attributes that a second argument gives. -/
def argumentAttributes (source : Octets) : Option Node → Members Value
  | some n => if n.kind = "object" then objectAttributes source n else []
  | none => []

/-- The usage of a call. -/
def factoryUsage? (rules : WalkRules) (source : Octets) (call : Node) : Option Usage :=
  if !isFactoryCall rules source call then none
  else
    let arguments := ((call.childByField? "arguments").map parts).getD []
    match arguments with
    | first :: rest =>
      -- a call with more than two arguments creates nothing
      if 1 < rest.length then none
      else do
        let tag ← argumentTag? source first
        if isComponentTag rules tag then
          some ⟨tag, argumentAttributes source rest.head?, call.text source⟩
        else none
    | [] => none

end SnippetAudit.Component
