import SnippetAudit.Schema.Keyword

/-!
# Keywords that apply subschemas

The keywords that judge the members and items of a value, or the value itself once more, by subschemas.

## What this module delivers

- `properties` to `contains`: subschemas for parts;
- `allOf` to `reference`: subschemas for the same value;
- `additionalNames`: the members of an object that no other keyword speaks of;
- `unreadableJoin?`: expressions for names that cannot be searched for as one.
-/

set_option autoImplicit false

namespace SnippetAudit.Schema

/-- Declared members meet their subschemas, in the order in which they are declared. -/
def properties : Keyword := fun scope arg v =>
  match v with
  | .object members =>
    (membersOf arg).flatMap fun (name, schema) =>
      match Members.get? members name with
      | some part => scope.judgePart (.member name) schema part
      | none => []
  | _ => []

/-- Members whose names match an expression meet its subschema. -/
def patternProperties : Keyword := fun scope arg v =>
  match v with
  | .object members =>
    (membersOf arg).flatMap fun (expression, schema) =>
      (members.filter fun pair => isFound expression pair.1).flatMap fun (name, part) =>
        scope.judgePart (.member name) schema part
  | _ => []

/-- All expressions for member names as one, with a bar between each two. -/
def joinedPatterns (schema : Members Value) : String :=
  "|".intercalate (membersOf ((schema.get? "patternProperties").getD .null)).names

/-- The members of an object that are neither declared nor matched by an expression for names. -/
def additionalNames (schema members : Members Value) : List String :=
  let declared := membersOf ((schema.get? "properties").getD .null)
  -- the expressions are searched for as one, which counts the groups of all of them
  let joined := joinedPatterns schema
  (Members.names members).filter fun name => !declared.has name && !(joined != "" && isFound joined name)

/-- Why the members that no other keyword speaks of cannot be told: there is a member that is not declared, and the
expressions for names cannot be read as one. That is so where two of them name a group alike, or where one behind the
first sets switches for the whole of it. -/
def unreadableJoin? (schema members : Members Value) : Option Breakdown :=
  let declared := membersOf ((schema.get? "properties").getD .null)
  let joined := joinedPatterns schema
  if joined != "" && (Regex.read? joined.toList).isNone && (Members.names members).any (!declared.has ·) then
    some (.unreadable joined)
  else none

/-- Names in a message, with the verb that goes with their number. -/
def namesWith (one several : String) (names : List String) : String :=
  ", ".intercalate (names.map Text.quoteString) ++
    (if names.length = 1 then one else several)

/-- The wording for members that are not allowed. -/
def additionalMessage (schema : Members Value) (extras : List String) : String :=
  match schema.get? "patternProperties" with
  | some patterns =>
    namesWith " does" " do" extras ++ " not match any of the regexes: " ++
      ", ".intercalate ((Sorted.sortStrings (membersOf patterns).names).map Text.quoteString)
  | none =>
    "Additional properties are not allowed (" ++ namesWith " was" " were" extras ++ " unexpected)"

/-- The failures of the members that are neither declared nor matched. -/
def judgeExtras (scope : Scope) (arg : Value) (members : Members Value) (extras : List String) : List Failure :=
  match arg with
  | .object _ =>
    extras.flatMap fun name =>
      scope.judgePart (.member name) arg ((Members.get? members name).getD .null)
  | .bool false =>
    if extras.isEmpty then []
    else
      [⟨[], .additionalProperties, additionalMessage scope.siblings (Sorted.sortStrings extras)⟩]
  | _ => []

/-- Members that are neither declared nor matched meet a subschema, or are not allowed at all. -/
def additionalProperties : Keyword := fun scope arg v =>
  match v with
  | .object members =>
    match unreadableJoin? scope.siblings members with
    | some cause => [.broken cause]
    | none => judgeExtras scope arg members (additionalNames scope.siblings members)
  | _ => []

/-- The names of members meet a subschema. -/
def propertyNames : Keyword := fun scope arg v =>
  match v with
  | .object members => (Members.names members).flatMap fun name => scope.judge arg (.str name)
  | _ => []

/-- Failures of items under one subschema, the first of them having the given number. -/
def judgeItems (scope : Scope) (schema : Value) (first : Nat) : List Value → List Failure
  | [] => []
  | item :: rest =>
    scope.judgePart (.item first) schema item ++ judgeItems scope schema (first + 1) rest

/-- Failures of items under a subschema each, the first of them having the given number. -/
def judgePairs (scope : Scope) (first : Nat) : List Value → List Value → List Failure
  | item :: items, schema :: schemas =>
    scope.judgePart (.item first) schema item ++ judgePairs scope (first + 1) items schemas
  | _, _ => []

/-- The first items of a list meet a subschema each. -/
def prefixItems : Keyword := fun scope arg v =>
  match v with
  | .list items => judgePairs scope 0 items (itemsOf arg)
  | _ => []

/-- The items of a list behind the first ones meet a subschema, or there are none. -/
def items : Keyword := fun scope arg v =>
  match v with
  | .list all =>
    let first := (itemsOf ((scope.siblings.get? "prefixItems").getD .null)).length
    let rest := all.drop first
    if rest.isEmpty then []
    else
      match arg with
      | .bool false =>
        let found := match rest with
          | [single] => shown single
          | several => shown (.list several)
        [.here ("Expected at most " ++ toString first ++ (if first = 1 then " item" else " items") ++
          " but found " ++ toString rest.length ++ " extra: " ++ found)]
      | schema => judgeItems scope schema first rest
  | _ => []

/-- The number of items that meet a condition, `count` of them before these. Once they are too many, no more items
are looked at. -/
def countMet (meets : Value → Except Breakdown Bool) (isTooMany : Nat → Bool) (count : Nat) :
    List Value → Except Breakdown Nat
  | [] => .ok count
  | item :: rest => do
    if ← meets item then
      if isTooMany (count + 1) then return count + 1
      countMet meets isTooMany (count + 1) rest
    else countMet meets isTooMany count rest

/-- Enough and not too many items of a list meet a subschema. -/
def contains : Keyword := fun scope arg v =>
  match v with
  | .list all => settle do
    let least := (scope.siblings.get? "minContains").getD (.int 1)
    let most := (scope.siblings.get? "maxContains").getD (.int all.length)
    let isTooMany (count : Nat) := compareNumbers (.int count) most == some .gt
    let count ← countMet (scope.accepts arg) isTooMany 0 all
    if isTooMany count then
      return [.here ("Too many items match the given schema (expected at most " ++ shown most ++ ")")]
    else if compareNumbers (.int count) least == some .lt then
      if count = 0 then return [.here (shown v ++ " does not contain items matching the given schema")]
      else
        return [.here ("Too few items match the given schema (expected at least " ++ shown least ++
          " but only " ++ toString count ++ " matched)")]
    else return []
  | _ => []

/-! ## Subschemas for the same value -/

/-- The value meets all subschemas. -/
def allOf : Keyword := fun scope arg v => (itemsOf arg).flatMap fun schema => scope.judge schema v

/-- The wording for a value that meets none of several subschemas. -/
def noneFits (v : Value) : Failure :=
  .here (shown v ++ " is not valid under any of the given schemas")

/-- The first of some schemas that the value meets, with the schemas behind it. -/
def firstMet? (scope : Scope) (v : Value) : List Value → Except Breakdown (Option (Value × List Value))
  | [] => .ok none
  | schema :: rest => do
    if (← scope.allFailures schema v).isEmpty then return some (schema, rest)
    firstMet? scope v rest

/-- The value meets one of the subschemas. -/
def anyOf : Keyword := fun scope arg v => settle do
  match ← firstMet? scope v (itemsOf arg) with
  | some _ => return []
  | none => return [noneFits v]

/-- The schemas that the value meets. -/
def allMet (scope : Scope) (v : Value) : List Value → Except Breakdown (List Value)
  | [] => .ok []
  | schema :: rest => do
    let isMet ← scope.accepts schema v
    let more ← allMet scope v rest
    return if isMet then schema :: more else more

/-- The value meets exactly one of the subschemas. -/
def oneOf : Keyword := fun scope arg v => settle do
  match ← firstMet? scope v (itemsOf arg) with
  | none => return [noneFits v]
  | some (first, rest) =>
    match ← allMet scope v rest with
    | [] => return []
    -- the first subschema that fits is named last
    | more =>
      return [.here (shown v ++ " is valid under each of " ++ ", ".intercalate ((more ++ [first]).map shown))]

/-- The value does not meet the subschema. -/
def negation : Keyword := fun scope arg v => settle do
  if ← scope.accepts arg v then return [.here (shown v ++ " should not be valid under " ++ shown arg)]
  else return []

/-- The value meets one of two subschemas, by whether it meets the condition. -/
def condition : Keyword := fun scope arg v => settle do
  let branch := if ← scope.accepts arg v then "then" else "else"
  match scope.siblings.get? branch with
  | some schema => return scope.judge schema v
  | none => return []

/-- An object that has a member meets the subschema that depends on it. -/
def dependentSchemas : Keyword := fun scope arg v =>
  match v with
  | .object members =>
    ((membersOf arg).filter fun pair => Members.has members pair.1).flatMap fun (_, schema) =>
      scope.judge schema v
  | _ => []

/-- The value that a reference leads to. -/
def target (scope : Scope) (arg : Value) : Except Lost Value :=
  match arg.string? with
  | none => .error ⟨none, "'" ++ arg.typeName ++ "' object has no attribute 'startswith'"⟩
  | some reference => resolve scope.root reference

/-- The value that a reference leads to, if it is a schema. -/
def admitted (scope : Scope) (schema : Value) : Except Breakdown Value :=
  match scope.manner.refusal? schema with
  | some reason => .error (.refusedTarget reason)
  | none => .ok schema

/-- The value meets the schema that a reference leads to. -/
def reference : Keyword := fun scope arg v => settle do
  let schema ← (target scope arg).mapError .lostReference
  return scope.judge (← admitted scope schema) v

end SnippetAudit.Schema
