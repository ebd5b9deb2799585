import SnippetAudit.GraphQL.Reference
import SnippetAudit.GraphQL.Suggestion

/-!
# Rules on types and fragments

Types that are mentioned must exist. A fragment must have a condition on a type with selections, a name of
its own, and a use; it may be spread only where its type and the type around it have something in common,
and never inside itself.

## What this module delivers

- `unknownType`: a type that does not exist;
- `conditionFaults`, `spreadFaults`: conditions and spreads;
- `cyclesFrom`, `unusedFragments`: fragments inside themselves, and fragments without a use.
-/

set_option autoImplicit false

namespace SnippetAudit.GraphQL.Rules

/-! ## Types -/

/-- A type that neither the schema nor the document has. -/
def unknownType (scope : Scope) (name : String) : List String :=
  let known := scope.schema.types.names ++ scope.document.declaredTypes
  if known.contains name then []
  else ["Unknown type '" ++ name ++ "'." ++ didYouMean "" (suggestions name known)]

/-! ## Conditions and spreads -/

/-- The type exists and has no selections. -/
def isPlainType (s : Schema) (name : String) : Bool :=
  s.typeMeets name fun body => !body.isComposite

/-- A condition on a type without selections; `subject` is the fragment that has the condition. -/
def conditionFaults (s : Schema) (subject : String) (condition : Option String) : List String :=
  match condition with
  | some name =>
    if isPlainType s name then
      [subject ++ " cannot condition on non composite type '" ++ name ++ "'."]
    else []
  | none => []

/-- Selections for a type that has nothing in common with the type around them. -/
def overlapFaults (s : Schema) (subject : String) (parent type : Option String) : List String :=
  match parent, type with
  | some parent, some type =>
    if s.overlap parent type then []
    else
      [subject ++ " cannot be spread here as objects of type '" ++ parent ++
        "' can never be of type '" ++ type ++ "'."]
  | _, _ => []

/-- How messages name a fragment. -/
def fragmentSubject (name : String) : String := "Fragment '" ++ name ++ "'"

/-- A fragment that does not exist, or whose type has nothing in common with the type around. -/
def spreadFaults (scope : Scope) (parent : Option String) (name : String) : List String :=
  match scope.document.fragment? name with
  | none => ["Unknown fragment '" ++ name ++ "'."]
  | some f =>
    overlapFaults scope.schema (fragmentSubject name) parent (compositeOf? scope.schema f.condition)

/-! ## Cycles -/

/-- The wording for a fragment that is spread inside itself by way of others. -/
def cycleText (name : String) (via : List String) : String :=
  "Cannot spread fragment '" ++ name ++ "' within itself" ++
    (if via.isEmpty then "" else " via " ++ ", ".intercalate (via.map fun f => "'" ++ f ++ "'")) ++ "."

/-- The search for cycles through the names that a fragment spreads. `opened` are the fragments that are
being looked into with their depth, `path` is the way of spreads so far, and `look` looks into a
fragment. -/
def cyclesThrough (opened : List (String × Nat)) (path : List String)
    (look : List String → String → StateM (List String) (List String)) :
    List String → StateM (List String) (List String)
  | [] => pure []
  | name :: rest => do
    let found ←
      match opened.lookup name with
      -- a fragment that is still open closes a cycle, and is not looked into again
      | some depth => pure [cycleText name (path.drop depth)]
      | none => look (path ++ [name]) name
    return found ++ (← cyclesThrough opened path look rest)

/-- The cycles found by looking into a fragment, less deeply than `fuel`. The state is the names of the
fragments that have been looked into, so every fragment is looked into once. -/
def cyclesWithin (d : Document) : Nat → List (String × Nat) → List String → Fragment →
    StateM (List String) (List String)
  | 0, _, _, _ => pure []
  | fuel + 1, opened, path, f => do
    if (← get).contains f.name then return []
    modify (f.name :: ·)
    let opened := (f.name, path.length) :: opened
    cyclesThrough opened path
      (fun path name =>
        match d.fragment? name with
        | some next => cyclesWithin d fuel opened path next
        | none => pure [])
      (spreadsIn f.set.selections)

/-- The cycles found by looking into a fragment. -/
def cyclesFrom (d : Document) (f : Fragment) : StateM (List String) (List String) :=
  cyclesWithin d (d.fragments.length + 1) [] [] f

/-- The cycles found at each fragment of a document in turn. -/
def cyclesByFragment (d : Document) : List (List String) :=
  ((d.fragments.mapM (cyclesFrom d)).run []).run.1

/-! ## Use -/

/-- The fragments that no operation reaches. -/
def unusedFragments (d : Document) : List String :=
  let used := d.operations.flatMap fun o => (reachedFragments d o).map Fragment.name
  (d.fragments.filter fun f => !used.contains f.name).map fun f =>
    fragmentSubject f.name ++ " is never used."

end SnippetAudit.GraphQL.Rules
