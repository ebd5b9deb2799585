import SnippetAudit.Data.Value

/-!
# Equality of values

Two values are the same when they stand for the same data: numbers by value, whether whole or
floating-point, strings by characters, lists item by item, objects by members in any order. A truth
value is no number.

## What this module delivers

- `Value.same`: the equality that enumerations, constants and uniqueness use;
- `Value.looselyEqual`: the same with truth values counted as the numbers one and zero;
- `valuesBeyond`: the values that are equal to none of given ones, each once;
- `compareNumbers`: the exact order of numbers of both kinds.
-/

set_option autoImplicit false

namespace SnippetAudit

/-- The exact order of two numbers; none where one is not-a-number. -/
def compareNumbers : Value → Value → Option Ordering
  | .int a, .int b => some (compare a b)
  | .int a, .float y => (y.compareToRatio (a, 1)).map Ordering.swap
  | .float x, .int b => x.compareToRatio (b, 1)
  | .float x, .float y => x.compareTo y
  | _, _ => none

namespace Value

/-- A number, no truth value. -/
def isNumber : Value → Bool
  | .int _ => true
  | .float _ => true
  | _ => false

mutual

/-- The values stand for the same data. With `loose`, truth values count as one and zero. -/
def sameWith (loose : Bool) : Value → Value → Bool
  | .null, other => match other with
    | .null => true
    | _ => false
  | .bool a, other => match other with
    | .bool b => a == b
    | other => loose && compareNumbers (.int (if a then 1 else 0)) other == some .eq
  -- a truth value is the same as a number only where values are compared loosely
  | .int a, other => match other with
    | .bool b => loose && a == (if b then 1 else 0)
    | other => compareNumbers (.int a) other == some .eq
  | .float x, other => match other with
    | .bool b => loose && compareNumbers (.float x) (.int (if b then 1 else 0)) == some .eq
    | other => compareNumbers (.float x) other == some .eq
  | .str s, other => other.string? == some s
  | .expr source, other => other.string? == some source
  | .list items, other => match other with
    | .list others => sameItems loose items others
    | _ => false
  | .object members, other => match other with
    | .object others => members.length == others.length && sameMembers loose members others
    | _ => false

/-- Two lists hold the same data item by item. -/
def sameItems (loose : Bool) : List Value → List Value → Bool
  | [], others => others.isEmpty
  | item :: rest, others => match others with
    | [] => false
    | other :: more => sameWith loose item other && sameItems loose rest more

/-- Every member of the first object has a member of the same name and data in the second. -/
def sameMembers (loose : Bool) : List (String × Value) → List (String × Value) → Bool
  | [], _ => true
  | (name, value) :: rest, others =>
    (match Members.get? others name with
      | some other => sameWith loose value other
      | none => false) && sameMembers loose rest others

end

/-- The values stand for the same data. -/
def same (v w : Value) : Bool := sameWith false v w

/-- The values stand for the same data when truth values count as one and zero. -/
def looselyEqual (v w : Value) : Bool := sameWith true v w

end Value

/-- The values that are equal to none of `known`, each once, in the order of their first place; truth values count as
one and zero. -/
def valuesBeyond (known : List Value) : List Value → List Value
  | [] => []
  | v :: rest =>
    if known.any fun other => other.looselyEqual v then valuesBeyond known rest
    else v :: valuesBeyond (v :: known) rest

end SnippetAudit
