import SnippetAudit.Data.Members
import SnippetAudit.Numeric.Shortest
import SnippetAudit.Text.Quoted

/-!
# Values

The values of attributes and of data documents: null, truth values, whole numbers of any size,
floating-point numbers, strings, lists and objects with ordered members. An attribute whose value is
an expression of the program keeps the expression's source and is compared as a string.

## What this module delivers

- `Value`: the values;
- `Value.text`: how messages show a value;
- `Value.typeName`: the name of a value's type;
- `Value.string?`: the characters of a string or of an expression;
- `Value.size`, `Value.depth`: measures used for budgets.
-/

set_option autoImplicit false

namespace SnippetAudit

/-- A value of an attribute or of a data document. -/
inductive Value where
  | null
  | bool (b : Bool)
  | int (n : Int)
  | float (x : Binary64)
  | str (s : String)
  | expr (source : String)
  | list (items : List Value)
  | object (members : List (String × Value))
  deriving Repr, Inhabited

namespace Value

mutual

/-- How messages show a value. -/
def text : Value → String
  | .null => "None"
  | .bool b => if b then "True" else "False"
  | .int n => toString n
  | .float x => x.text
  | .str s => Text.quoteString s
  | .expr source => "ExpressionValue(" ++ Text.quoteString source ++ ")"
  | .list items => "[" ++ ", ".intercalate (itemTexts items) ++ "]"
  | .object members => "\x7b" ++ ", ".intercalate (memberTexts members) ++ "\x7d"

/-- How messages show each item of a list. -/
def itemTexts : List Value → List String
  | [] => []
  | item :: rest => text item :: itemTexts rest

/-- How messages show each member of an object. -/
def memberTexts : List (String × Value) → List String
  | [] => []
  | (name, value) :: rest => (Text.quoteString name ++ ": " ++ text value) :: memberTexts rest

end

mutual

/-- The number of values in a value, itself included. -/
def size : Value → Nat
  | .list items => sizeItems items + 1
  | .object members => sizeMembers members + 1
  | _ => 1

/-- The number of values in the items of a list. -/
def sizeItems : List Value → Nat
  | [] => 0
  | item :: rest => size item + sizeItems rest

/-- The number of values in the members of an object. -/
def sizeMembers : List (String × Value) → Nat
  | [] => 0
  | (_, value) :: rest => size value + sizeMembers rest

end

mutual

/-- How deep lists and objects are nested in a value. -/
def depth : Value → Nat
  | .list items => depthItems items + 1
  | .object members => depthMembers members + 1
  | _ => 0

/-- How deep lists and objects are nested in the items of a list. -/
def depthItems : List Value → Nat
  | [] => 0
  | item :: rest => max (depth item) (depthItems rest)

/-- How deep lists and objects are nested in the members of an object. -/
def depthMembers : List (String × Value) → Nat
  | [] => 0
  | (_, value) :: rest => max (depth value) (depthMembers rest)

end

/-- The name of a value's type in messages. -/
def typeName : Value → String
  | .null => "NoneType"
  | .bool _ => "bool"
  | .int _ => "int"
  | .float _ => "float"
  | .str _ => "str"
  | .expr _ => "ExpressionValue"
  | .list _ => "list"
  | .object _ => "dict"

/-- The characters of a string or of an expression's source. -/
def string? : Value → Option String
  | .str s => some s
  | .expr source => some source
  | _ => none

/-- The members of an object. -/
def members? : Value → Option (Members Value)
  | .object members => some members
  | _ => none

/-- The items of a list. -/
def items? : Value → Option (List Value)
  | .list items => some items
  | _ => none

/-- The member of an object of the given name. -/
def member? (v : Value) (name : String) : Option Value :=
  v.members?.bind (Members.get? · name)

/-- The value is an expression. -/
def isExpr : Value → Bool
  | .expr _ => true
  | _ => false

end Value

end SnippetAudit
