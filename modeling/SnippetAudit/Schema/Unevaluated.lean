import SnippetAudit.Schema.Applicator

/-!
# Parts that nothing has judged

A schema may speak of the members and items that no other keyword in it has judged, in the schema itself
or in the subschemas that apply to the same value and that the value meets.

## What this module delivers

- `evaluatedNames`, `evaluatedIndices`: the members and items that a schema judges;
- the keywords `unevaluatedProperties` and `unevaluatedItems`.
-/

set_option autoImplicit false

namespace SnippetAudit.Schema

/-- The schemas that the references of a schema lead to. -/
def referredSchemas (scope : Scope) (schema : Members Value) : List String → Except Breakdown (List Value)
  | [] => .ok []
  | keyword :: rest =>
    match schema.get? keyword with
    | none => referredSchemas scope schema rest
    | some arg => do
      let here ← (target scope arg).mapError .lostInside
      return (← admitted scope here) :: (← referredSchemas scope schema rest)

/-- The subschemas that a condition applies to a value, itself included where the value meets it. -/
def conditionalSchemas (scope : Scope) (schema : Members Value) (v : Value) : Except Breakdown (List Value) :=
  match schema.get? "if" with
  | none => .ok []
  | some condition => do
    if ← scope.accepts condition v then return condition :: (schema.get? "then").toList
    else return (schema.get? "else").toList

/-- The subschemas that a schema applies to the same value and that count for what it has judged. -/
def appliedInPlace (scope : Scope) (schema : Members Value) (v : Value) : Except Breakdown (List Value) := do
  let referenced ← referredSchemas scope schema ["$ref", "$dynamicRef"]
  let combined ← allMet scope v <| ["allOf", "oneOf", "anyOf"].flatMap fun keyword =>
    itemsOf ((schema.get? keyword).getD .null)
  let conditional ← conditionalSchemas scope schema v
  return referenced ++ combined ++ conditional

/-- The subschemas that apply to an object because of its members. -/
def appliedByMembers (schema members : Members Value) : List Value :=
  ((membersOf ((schema.get? "dependentSchemas").getD .null)).filter fun pair =>
    Members.has members pair.1).map Prod.snd

/-- The names of the members that meet a subschema. -/
def namesMeeting (scope : Scope) (schema : Value) : Members Value → Except Breakdown (List String)
  | [] => .ok []
  | (name, part) :: rest => do
    let isMet ← scope.accepts schema part
    let more ← namesMeeting scope schema rest
    return if isMet then name :: more else more

/-- The names of the members that meet the subschema of one of some keywords. -/
def namesAccepted (scope : Scope) (schema members : Members Value) : List String → Except Breakdown (List String)
  | [] => .ok []
  | keyword :: rest => do
    let here ← match schema.get? keyword with
      | some sub => namesMeeting scope sub members
      | none => .ok []
    return here ++ (← namesAccepted scope schema members rest)

/-- The members of an object that a schema judges. -/
def evaluatedNames (scope : Scope) (members : Members Value) : Nat → Value → Except Breakdown (List String)
  | 0, _ => .error .endless
  | fuel + 1, .object schema => do
    let declared := membersOf ((Members.get? schema "properties").getD .null)
    let expressions := (membersOf ((Members.get? schema "patternProperties").getD .null)).names
    let applied ← appliedInPlace scope schema (.object members)
    -- these judge all members alike, so what they accept counts even where another keyword speaks of it
    let accepted ← namesAccepted scope schema members ["additionalProperties", "unevaluatedProperties"]
    let inner ← (applied ++ appliedByMembers schema members).mapM (evaluatedNames scope members fuel)
    return (Members.names members).filter declared.has ++
      (Members.names members).filter (fun name => expressions.any (isFound · name)) ++ accepted ++ inner.flatten
  | _ + 1, _ => .ok []

/-- The names of members, once for each failure that they have under a subschema. -/
def failingNames (scope : Scope) (schema : Value) : Members Value → Except Breakdown (List String)
  | [] => .ok []
  | (name, part) :: rest => do
    let fs ← scope.allFailures schema part
    return fs.map (fun _ => name) ++ (← failingNames scope schema rest)

/-- The members that no keyword has judged meet a subschema, or are not allowed at all. -/
def unevaluatedProperties : Keyword := fun scope arg v =>
  match v with
  | .object members => settle do
    let known ← evaluatedNames scope members scope.budget (.object scope.siblings)
    let failing ← failingNames scope arg (members.filter fun pair => !known.contains pair.1)
    if failing.isEmpty then return []
    match arg with
    | .bool false =>
      return [.here ("Unevaluated properties are not allowed (" ++
        namesWith " was" " were" (Sorted.sortStrings failing) ++ " unexpected)")]
    | _ =>
      return [.here ("Unevaluated properties are not valid under the given schema (" ++
        namesWith " was" " were" failing ++ " unexpected)")]
  | _ => []

/-- The places of the items that meet a subschema, the first of them having the given number. -/
def indicesMeeting (scope : Scope) (schema : Value) (first : Nat) : List Value → Except Breakdown (List Nat)
  | [] => .ok []
  | item :: rest => do
    let isMet ← scope.accepts schema item
    let more ← indicesMeeting scope schema (first + 1) rest
    return if isMet then first :: more else more

/-- The places of the items that meet the subschema of one of some keywords. -/
def indicesAccepted (scope : Scope) (schema : Members Value) (all : List Value) :
    List String → Except Breakdown (List Nat)
  | [] => .ok []
  | keyword :: rest => do
    let here ← match schema.get? keyword with
      | some sub => indicesMeeting scope sub 0 all
      | none => .ok []
    return here ++ (← indicesAccepted scope schema all rest)

/-- The places of the items that a schema judges. -/
def evaluatedIndices (scope : Scope) (all : List Value) : Nat → Value → Except Breakdown (List Nat)
  | 0, _ => .error .endless
  | fuel + 1, .object schema => do
    -- a subschema for items judges all items that the first ones leave
    if Members.has schema "items" then return List.range all.length
    let first := (itemsOf ((Members.get? schema "prefixItems").getD .null)).length
    let applied ← appliedInPlace scope schema (.list all)
    let accepted ← indicesAccepted scope schema all ["contains", "unevaluatedItems"]
    let inner ← applied.mapM (evaluatedIndices scope all fuel)
    return List.range first ++ accepted ++ inner.flatten
  | _ + 1, _ => .ok []

/-- The items at places that are not known, the first of them having the given number. -/
def itemsOutside (known : List Nat) (first : Nat) : List Value → List Value
  | [] => []
  | item :: rest =>
    if known.contains first then itemsOutside known (first + 1) rest
    else item :: itemsOutside known (first + 1) rest

/-- There are no items that no keyword has judged. -/
def unevaluatedItems : Keyword := fun scope _ v =>
  match v with
  | .list all => settle do
    let known ← evaluatedIndices scope all scope.budget (.object scope.siblings)
    match itemsOutside known 0 all with
    | [] => return []
    | extras =>
      return [.here ("Unevaluated items are not allowed (" ++ ", ".intercalate (extras.map shown) ++
        (if extras.length = 1 then " was" else " were") ++ " unexpected)")]
  | _ => []

end SnippetAudit.Schema
