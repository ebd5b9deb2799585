import SnippetAudit.GraphQL.Reference

/-!
# Rules on delivery in parts

Two directives ask for a result in several parts: `defer` leaves a fragment for later, and `stream` gives a
list item by item. Neither may stand on the first fields of mutations and subscriptions, nor inside a
subscription unless it can be switched off. The parts may have labels, which are written out and tell them
apart.

## What this module delivers

- `Stand`: where a directive stands;
- `deliveryFaults`: what is said about the operation in which such a directive stands;
- `deliveryLabel?`: the label of such a directive;
- `streamFaults`: what is said about a stream of a field that is no list.
-/

set_option autoImplicit false

namespace SnippetAudit.GraphQL

/-- Where a directive stands: the kind of the place, the type of the selections around it, and the field
that it stands on or in. -/
structure Stand where
  place : Place
  parent : Option String := none
  field? : Option FieldSite := none

namespace Rules

/-! ## Delivery -/

/-- The directives that ask for delivery in parts, with the word that begins messages on them. -/
def deliveryWord? (d : Directive) : Option String :=
  [("defer", "Defer"), ("stream", "Stream")].lookup d.name

/-- The value of an argument of a directive. -/
def argumentValue? (d : Directive) (name : String) : Option Literal :=
  (d.arguments.find? fun a => a.name == name).map Argument.value

/-- The directive has a condition that can be false. -/
def canBeOff (d : Directive) : Bool :=
  match argumentValue? d "if" with
  | some (.bool b) => !b
  | some (.var _) => true
  | _ => false

/-- A directive on the first fields of a kind of operation that must come at once. -/
def rootFaults (s : Schema) (stand : Stand) (word : String) : List String :=
  [OperationKind.mutation, .subscription].filterMap fun kind =>
    match s.root? kind, stand.parent with
    | some root, some parent =>
      if root = parent then
        some (word ++ " directive cannot be used on root " ++ kind.name ++ " type '" ++ parent ++ "'.")
      else none
    | _, _ => none

/-- A directive inside a subscription that cannot be off. -/
def liveFaults (scope : Scope) (d : Directive) (word : String) : List String :=
  if scope.live && !canBeOff d then
    [word ++ " directive not supported on subscription operations. Disable `@" ++ d.name ++
      "` by setting the `if` argument to `false`."]
  else []

/-- A stream of a field that is no list. -/
def streamFaults (stand : Stand) (d : Directive) : List String :=
  match stand.parent, stand.field? with
  | some parent, some site =>
    if d.name = "stream" && !site.field.type.isList then
      ["Directive '@stream' cannot be used on non-list field '" ++ parent ++ "." ++ site.field.name ++
        "'."]
    else []
  | _, _ => []

/-- What is said about the operation in which a directive asks for delivery in parts. -/
def deliveryFaults (scope : Scope) (stand : Stand) (d : Directive) : List String :=
  match deliveryWord? d with
  | some word => rootFaults scope.schema stand word ++ liveFaults scope d word
  | none => []

/-! ## Labels -/

/-- The label of a directive that asks for delivery in parts, or what is wrong with it. -/
def deliveryLabel? (d : Directive) : Option (Except String String) :=
  match deliveryWord? d, argumentValue? d "label" with
  | some _, some (.string label) => some (.ok label)
  | some _, some (.block label) => some (.ok label)
  | some _, some _ =>
    some (.error ("Argument '@" ++ d.name ++ "(label:)' must be a static string."))
  | _, _ => none

/-- The wording for a label that was given before. -/
def labelTaken : String :=
  "Value for arguments 'defer(label:)' and 'stream(label:)' must be unique across all Defer/Stream directive usages."

end Rules

end SnippetAudit.GraphQL
