import SnippetAudit.Data.Value

/-!
# Shapes of attributes

The contracts of built-in components are schema documents of one form: an object whose attributes are
strings, truth values, numbers, choices, lists or records, or callbacks of which only the presence can be
checked.

## What this module delivers

- `Shape.string` to `Shape.record`: the shapes of attributes;
- `component`: the contract of a component.
-/

set_option autoImplicit false

namespace SnippetAudit.Contract

namespace Shape

/-- Any string. -/
def string : Value := .object [("type", .str "string")]

/-- A truth value. -/
def boolean : Value := .object [("type", .str "boolean")]

/-- Any number. -/
def number : Value := .object [("type", .str "number")]

/-- A callback. -/
def callback : Value :=
  .object [("description", .str "Callback; only its presence can be checked")]

/-- An event handler. -/
def handler : Value :=
  .object [("type", .str "string"),
    ("description", .str "Event handler (inline script or expression)")]

/-- One of some strings. -/
def choice (options : List String) : Value :=
  .object [("type", .str "string"), ("enum", .list (options.map .str))]

/-- Any list. -/
def list : Value := .object [("type", .str "array")]

/-- A list of items of one shape. -/
def listOf (item : Value) : Value := .object [("type", .str "array"), ("items", item)]

/-- An object with attributes of given shapes and any others. -/
def record (properties : Members Value) : Value :=
  .object [("type", .str "object"), ("properties", .object properties)]

end Shape

/-- The contract of a component with its required attributes and the shapes of its attributes. -/
def component (required : List String) (properties : Members Value) : Members Value :=
  [("type", .str "object"), ("properties", .object properties)] ++
    (if required.isEmpty then [] else [("required", .list (required.map .str))])

end SnippetAudit.Contract
