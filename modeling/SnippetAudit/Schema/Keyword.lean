import SnippetAudit.Schema.Scope

/-!
# Keywords of one value

The keywords that judge a value without looking into its parts: its type, its number, its length, and
which values it may be.

## What this module delivers

- `hasType`: the types of values;
- the keywords `typeKeyword` to `dependentRequired`.
-/

set_option autoImplicit false

namespace SnippetAudit.Schema

/-- A value has a type of the given name. A floating-point number with a whole value is an integer, and
an expression is a string. -/
def hasType (v : Value) (name : String) : Bool :=
  match v with
  | .null => name == "null"
  | .bool _ => name == "boolean"
  | .int _ => name == "integer" || name == "number"
  | .float x => name == "number" || (name == "integer" && x.isWhole)
  | .str _ => name == "string"
  | .expr _ => name == "string"
  | .list _ => name == "array"
  | .object _ => name == "object"

/-- The value has one of the named types. -/
def typeKeyword : Keyword := fun _ arg v =>
  let types := match arg with
    | .list items => items
    | other => [other]
  if types.any fun t => t.string?.any (hasType v) then []
  else [.here (shown v ++ " is not of type " ++ ", ".intercalate (types.map shown))]

/-- The value is one of a list. -/
def enumKeyword : Keyword := fun _ arg v =>
  if (itemsOf arg).any (·.same v) then []
  else [.here (shown v ++ " is not one of " ++ shown arg)]

/-- The value is a given one. -/
def constKeyword : Keyword := fun _ arg v =>
  if v.same arg then [] else [.here (shown arg ++ " was expected")]

/-- A number that stands in one of the `failing` orders to a bound fails with a wording. -/
def boundKeyword (failing : List Ordering) (wording : String) : Keyword := fun _ arg v =>
  match compareNumbers v arg with
  | some o => if failing.contains o then [.here (shown v ++ wording ++ shown arg)] else []
  | none => []

/-- A number is not below a bound. -/
def minimum : Keyword := boundKeyword [.lt] " is less than the minimum of "

/-- A number is not above a bound. -/
def maximum : Keyword := boundKeyword [.gt] " is greater than the maximum of "

/-- A number is above a bound. -/
def exclusiveMinimum : Keyword :=
  boundKeyword [.lt, .eq] " is less than or equal to the minimum of "

/-- A number is below a bound. -/
def exclusiveMaximum : Keyword :=
  boundKeyword [.gt, .eq] " is greater than or equal to the maximum of "

/-- The floating-point number next to a whole number, if there is one. -/
def floatOf (n : Int) : Except Breakdown Binary64 :=
  match Binary64.ofInt n with
  | .infinite _ => .error .tooLarge
  | x => .ok x

/-- The exact quotient of two finite numbers is whole. -/
def isExactMultiple (dividend divisor : Int × Nat) : Bool :=
  dividend.1 * (divisor.2 : Int) % (divisor.1 * (dividend.2 : Int)) == 0

/-- A number is a multiple of a whole number. -/
def isMultipleOfInt (v : Value) (divisor : Int) : Except Breakdown Bool :=
  match v with
  | .int n => .ok (n % divisor == 0)
  | .float x => do
    -- the remainder is taken of the exact values, the divisor being rounded first
    match x.ratio?, (← floatOf divisor).ratio? with
    | some dividend, some rounded => return isExactMultiple dividend rounded
    | _, _ => return false
  | _ => .ok true

/-- A number is a multiple of a floating-point number when their rounded quotient is whole. Where the
quotient is beyond all finite numbers, the exact quotient decides. -/
def isMultipleOfFloat (v : Value) (divisor : Binary64) : Except Breakdown Bool := do
  let dividend ← match v with
    | .int n => floatOf n
    | .float x => .ok x
    | _ => .ok .nan
  match dividend.divide divisor with
  | .nan => .error .noQuotient
  | .infinite _ =>
    match dividend.ratio?, divisor.ratio? with
    | some num, some den => return isExactMultiple num den
    | _, _ => .error .infinite
  | quotient => return quotient.isWhole

/-- A value is a multiple of a number, or why that cannot be told. -/
def isMultipleOf (v : Value) : Value → Except Breakdown Bool
  | .int divisor => isMultipleOfInt v divisor
  | .float divisor => isMultipleOfFloat v divisor
  | _ => .ok true

/-- A number is a multiple of another one. -/
def multipleOf : Keyword := fun _ arg v =>
  if v.isNumber then settle do
    if ← isMultipleOf v arg then return []
    else return [.here (shown v ++ " is not a multiple of " ++ shown arg)]
  else []

/-- A count that is below a bound fails; a bound of one has a wording of its own. -/
def lowerCount (v arg : Value) (count : Nat) (wording : String) : List Failure :=
  if compareNumbers (.int count) arg == some .lt then
    let one := compareNumbers arg (.int 1) == some .eq
    [.here (shown v ++ (if one then " should be non-empty" else wording))]
  else []

/-- A count that is above a bound fails; a bound of zero has a wording of its own. -/
def upperCount (v arg : Value) (count : Nat) (wording : String) : List Failure :=
  if compareNumbers (.int count) arg == some .gt then
    let zero := compareNumbers arg (.int 0) == some .eq
    [.here (shown v ++ (if zero then " is expected to be empty" else wording))]
  else []

/-- A string has at least so many characters. -/
def minLength : Keyword := fun _ arg v =>
  match v.string? with
  | some s => lowerCount v arg s.length " is too short"
  | none => []

/-- A string has at most so many characters. -/
def maxLength : Keyword := fun _ arg v =>
  match v.string? with
  | some s => upperCount v arg s.length " is too long"
  | none => []

/-- An expression is found in a string. -/
def pattern : Keyword := fun _ arg v =>
  match v.string?, arg.string? with
  | some s, some p =>
    if isFound p s then [] else [.here (shown v ++ " does not match " ++ shown arg)]
  | _, _ => []

/-- A string has a format. Formats other than that of expressions are only noted. -/
def format : Keyword := fun scope arg v =>
  match v, arg with
  | .str s, .str "regex" =>
    if scope.manner.judgesFormats && (Regex.read? s.toList).isNone then
      [.here (shown v ++ " is not a " ++ shown arg)]
    else []
  | _, _ => []

/-- A list has at least so many items. -/
def minItems : Keyword := fun _ arg v =>
  match v with
  | .list items => lowerCount v arg items.length " is too short"
  | _ => []

/-- A list has at most so many items. -/
def maxItems : Keyword := fun _ arg v =>
  match v with
  | .list items => upperCount v arg items.length " is too long"
  | _ => []

/-- No two items of a list are the same. -/
def uniqueItems : Keyword := fun _ arg v =>
  match v, arg with
  | .list items, .bool true =>
    if Value.allDistinct items then [] else [.here (shown v ++ " has non-unique elements")]
  | _, _ => []

/-- An object has at least so many members. -/
def minProperties : Keyword := fun _ arg v =>
  match v with
  | .object members => lowerCount v arg members.length " does not have enough properties"
  | _ => []

/-- An object has at most so many members. -/
def maxProperties : Keyword := fun _ arg v =>
  match v with
  | .object members => upperCount v arg members.length " has too many properties"
  | _ => []

/-- The name that a value gives is a member of an object. -/
def hasMember (members : Members Value) (name : Value) : Bool :=
  name.string?.any (Members.has members)

/-- An object has all members of a list of names. -/
def required : Keyword := fun _ arg v =>
  match v with
  | .object members =>
    ((itemsOf arg).filter fun name => !hasMember members name).map fun name =>
      ⟨[], .required (itemsOf arg), shown name ++ " is a required property"⟩
  | _ => []

/-- An object that has a member has also those that depend on it. -/
def dependentRequired : Keyword := fun _ arg v =>
  match v with
  | .object members =>
    ((membersOf arg).filter fun pair => Members.has members pair.1).flatMap fun (name, needed) =>
      ((itemsOf needed).filter fun other => !hasMember members other).map fun other =>
        .here (shown other ++ " is a dependency of " ++ Text.quoteString name)
  | _ => []

end SnippetAudit.Schema
