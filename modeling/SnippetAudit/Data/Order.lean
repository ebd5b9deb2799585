import SnippetAudit.Data.Equality

/-!
# Order and uniqueness of values

Numbers are ordered by value, strings by their characters, lists by the first items that differ. Other
values, and values of different kinds, have no order. A list is searched for repetitions by putting it
in order and comparing neighbours; where it has no order, every item is compared with every other one.

## What this module delivers

- `Value.precedes?`: the order, where there is one;
- `Value.sorted?`: a list in order, if all comparisons made are possible;
- `Value.allDistinct`: no two items are the same.
-/

set_option autoImplicit false

namespace SnippetAudit.Value

mutual

/-- The first value comes before the second one in a list; truth values count as one and zero. -/
def innerPrecedes? : Value → Value → Option Bool
  | .bool a, other => numberPrecedes? (.int (if a then 1 else 0)) other
  | .int a, other => numberPrecedes? (.int a) other
  | .float x, other => numberPrecedes? (.float x) other
  | .str s, other => other.string?.map (s < ·)
  | .expr source, other => other.string?.map (source < ·)
  | .list items, other => match other with
    | .list others => itemsPrecede? items others
    | _ => none
  | _, _ => none

/-- The first list comes before the second one: it is smaller at the first items that differ, or it
ends first. -/
def itemsPrecede? : List Value → List Value → Option Bool
  | [], others => some !others.isEmpty
  | item :: rest, others => match others with
    | [] => some false
    | other :: more =>
      if looselyEqual item other then itemsPrecede? rest more else innerPrecedes? item other

/-- A number comes before another value that counts as a number. -/
def numberPrecedes? (number other : Value) : Option Bool :=
  match other with
  | .bool b => some (compareNumbers number (.int (if b then 1 else 0)) == some .lt)
  | .int n => some (compareNumbers number (.int n) == some .lt)
  | .float y => some (compareNumbers number (.float y) == some .lt)
  | _ => none

end

/-- The first value comes before the second one, if the two have an order; truth values have none. -/
def precedes? (v w : Value) : Option Bool :=
  match v, w with
  | .bool _, _ => none
  | _, .bool _ => none
  | v, w => innerPrecedes? v w

/-- Puts a value behind all values of an ordered list that it does not precede. -/
def insertSorted? (v : Value) : List Value → Option (List Value)
  | [] => some [v]
  | w :: rest => do
    if ← precedes? v w then some (v :: w :: rest) else (w :: ·) <$> insertSorted? v rest

/-- The values in order, if all comparisons made are possible. -/
def sorted? (items : List Value) : Option (List Value) :=
  items.foldlM (fun sorted v => insertSorted? v sorted) []

/-- Some item is the same as one of its neighbours. -/
def hasEqualNeighbours : List Value → Bool
  | v :: w :: rest => same v w || hasEqualNeighbours (w :: rest)
  | _ => false

/-- Some item is the same as a later one. -/
def hasEqualPair : List Value → Bool
  | [] => false
  | v :: rest => rest.any (same v) || hasEqualPair rest

/-- No two items of a list are the same. -/
def allDistinct (items : List Value) : Bool :=
  match sorted? items with
  -- in a list in order the same values stand next to each other
  | some ordered => !hasEqualNeighbours ordered
  | none => !hasEqualPair items

end SnippetAudit.Value
