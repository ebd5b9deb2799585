import SnippetAudit.Data.Members
import SnippetAudit.GraphQL.Rules.Fragment

/-!
# Fields that cannot be merged

Fields with one response name are merged into one result, so they must be the same field with the same
arguments, of types that have one form, and their selections must merge in turn. Only fields that can never
apply to one object may differ in name and arguments. Fields reached through fragments are compared too,
each pair of fragments, and each set of selections with each fragment, once.

## What this module delivers

- `FieldSet`, `fieldSet`: the fields of selections by response name, and the fragments they spread;
- `Conflict`, `Conflict.text`: two fields that cannot be merged, and why;
- `OverlapM`: comparing, which remembers what has been compared;
- `setConflicts`: the conflicts inside of a set of selections.
-/

set_option autoImplicit false

namespace SnippetAudit.GraphQL.Rules

/-! ## Fields by response name -/

/-- A selected field with the type that it is selected on. -/
structure Selected where
  parent : Option String
  head : FieldHead
  set? : Option SelectionSet
  type : Option TypeRef

/-- The fields of selections by response name, and the fragments that are spread among them, with the
place that the selections have. -/
structure FieldSet where
  place : Nat
  fields : Members (List Selected)
  spreads : List String

namespace FieldSet

/-- The set with a further field. -/
def addField (set : FieldSet) (f : Selected) : FieldSet :=
  let name := f.head.responseName
  { set with fields := set.fields.put name (((set.fields.get? name).getD []) ++ [f]) }

/-- The set with a further fragment. -/
def addSpread (set : FieldSet) (name : String) : FieldSet :=
  if set.spreads.contains name then set else { set with spreads := set.spreads ++ [name] }

end FieldSet

/-- The type of a field of a type. -/
def selectedType? (s : Schema) (parent : Option String) (name : String) : Option TypeRef :=
  parent.bind fun parent =>
    ((((s.body? parent).map TypeBody.fields).getD []).find? fun f => f.name == name).map Field.type

/-- A type that exists. -/
def existing? (s : Schema) (name : String) : Option String :=
  if (s.body? name).isSome then some name else none

mutual

/-- A set with the fields and fragments of selections on a type. -/
def addSelections (s : Schema) (parent : Option String) (set : FieldSet) :
    List Selection → FieldSet
  | [] => set
  | selection :: rest => addSelections s parent (addSelection s parent set selection) rest

/-- A set with what a selection on a type adds to it. -/
def addSelection (s : Schema) (parent : Option String) (set : FieldSet) : Selection → FieldSet
  | .leaf f => set.addField ⟨parent, f, none, selectedType? s parent f.name⟩
  | .branch f place selections =>
    set.addField ⟨parent, f, some ⟨place, selections⟩, selectedType? s parent f.name⟩
  | .spread name _ => set.addSpread name
  | .inline condition _ _ selections =>
    let parent := match condition with
      | some name => existing? s name
      | none => parent
    addSelections s parent set selections

end

/-- The fields of a set of selections on a type. -/
def fieldSet (s : Schema) (parent : Option String) (set : SelectionSet) : FieldSet :=
  addSelections s parent ⟨set.place, [], []⟩ set.selections

/-- The fields of a fragment. -/
def fragmentSet (s : Schema) (f : Fragment) : FieldSet := fieldSet s (existing? s f.condition) f.set

/-! ## Conflicts -/

/-- Why two fields cannot be merged. -/
inductive Reason where
  | differentFields (a b : String)
  | differingArguments
  | conflictingTypes (a b : TypeRef)
  /-- Subfields with the given response names cannot be merged. -/
  | subfields (conflicts : List (String × Reason))
  deriving Repr

mutual

/-- The wording of a reason. -/
def Reason.text : Reason → String
  | .differentFields a b => "'" ++ a ++ "' and '" ++ b ++ "' are different fields"
  | .differingArguments => "they have differing arguments"
  | .conflictingTypes a b =>
    "they return conflicting types '" ++ a.text ++ "' and '" ++ b.text ++ "'"
  | .subfields conflicts => " and ".intercalate (Reason.texts conflicts)

/-- The wording of each of the conflicts of subfields. -/
def Reason.texts : List (String × Reason) → List String
  | [] => []
  | (name, reason) :: rest =>
    ("subfields '" ++ name ++ "' conflict because " ++ Reason.text reason) :: Reason.texts rest

end

/-- A response name whose fields cannot be merged, and why. -/
abbrev Conflict := String × Reason

/-- The wording of a conflict. -/
def conflictText (c : Conflict) : String :=
  "Fields '" ++ c.1 ++ "' conflict because " ++ c.2.text ++
    ". Use different aliases on the fields to fetch both if this was intentional."

/-! ## Comparing two fields -/

mutual

/-- A literal with the fields of its objects in the order of their names. -/
def sortedLiteral : Literal → Literal
  | .list items => .list (sortedItems items)
  | .object fields =>
    .object (Sorted.sortBy (fun a b => naturalBefore a.1 b.1) (sortedFields fields))
  | value => value

/-- Each item of a list with its fields in order. -/
def sortedItems : List Literal → List Literal
  | [] => []
  | item :: rest => sortedLiteral item :: sortedItems rest

/-- Each field of an object with the fields inside in order. -/
def sortedFields : List (String × Literal) → List (String × Literal)
  | [] => []
  | (name, value) :: rest => (name, sortedLiteral value) :: sortedFields rest

end

/-- Two lists of arguments give the same values to the same names. -/
def sameArguments (a b : List Argument) : Bool :=
  a.length == b.length && a.all fun x =>
    -- of arguments with one name the last counts
    match b.reverse.find? fun y => y.name == x.name with
    | some y => (sortedLiteral x.value).text == (sortedLiteral y.value).text
    | none => false

/-- Values of two types never have one form. -/
def typesConflict (s : Schema) : TypeRef → TypeRef → Bool
  | .list a, .list b => typesConflict s a b
  | .list _, _ => true
  | _, .list _ => true
  | .nonNull a, .nonNull b => typesConflict s a b
  | .nonNull _, _ => true
  | _, .nonNull _ => true
  | .named a, .named b =>
    (s.typeMeets a TypeBody.isLeaf || s.typeMeets b TypeBody.isLeaf) && a != b

/-- Two fields are selected on different object types, so they never apply to one object. -/
def onDifferentObjects (s : Schema) (a b : Selected) : Bool :=
  match a.parent, b.parent with
  | some a, some b => a != b && s.typeMeets a TypeBody.isObject && s.typeMeets b TypeBody.isObject
  | _, _ => false

/-- Why two fields cannot be merged, apart from their selections. -/
def headConflict? (s : Schema) (exclusive : Bool) (a b : Selected) : Option Reason :=
  let names :=
    if exclusive then none
    else if a.head.name ≠ b.head.name then some (.differentFields a.head.name b.head.name)
    else if !sameArguments a.head.arguments b.head.arguments then some .differingArguments
    else none
  match names, a.type, b.type with
  | some reason, _, _ => some reason
  | none, some x, some y => if typesConflict s x y then some (.conflictingTypes x y) else none
  | none, _, _ => none

/-! ## What has been compared -/

/-- What has been compared so far: sets of selections, by their places, with fragments, and fragments
with each other. The truth value tells that only fields that exclude each other were compared. -/
structure Compared where
  withFragments : List (Nat × String × Bool) := []
  fragments : List (String × String × Bool) := []

/-- Comparing remembers what has been compared. -/
abbrev OverlapM := StateM Compared

/-- A pair was compared at least as strictly as it is to be compared now. -/
def wasCompared {α : Type} [DecidableEq α] (pairs : List (α × String × Bool)) (a : α) (b : String)
    (exclusive : Bool) : Bool :=
  pairs.any fun (a', b', exclusive') => a' = a && b' = b && (exclusive || !exclusive')

/-- Notes that a set is compared with a fragment; tells whether that is new. -/
def noteWithFragment (place : Nat) (name : String) (exclusive : Bool) : OverlapM Bool := do
  let compared ← get
  if wasCompared compared.withFragments place name exclusive then return false
  set { compared with withFragments := (place, name, exclusive) :: compared.withFragments }
  return true

/-- Notes that two fragments are compared; tells whether that is new. -/
def noteFragments (a b : String) (exclusive : Bool) : OverlapM Bool := do
  let compared ← get
  -- the order of the two fragments does not matter
  let (a, b) := if a < b then (a, b) else (b, a)
  if wasCompared compared.fragments a b exclusive then return false
  set { compared with fragments := (a, b, exclusive) :: compared.fragments }
  return true

/-! ## Comparing sets -/

/-- The fields of two sets that have one response name, pair by pair. -/
def commonPairs (a b : Members (List Selected)) : List (String × Selected × Selected) :=
  a.flatMap fun (name, xs) =>
    let ys := (b.get? name).getD []
    xs.flatMap fun x => ys.map fun y => (name, x, y)

/-- The pairs of different items of a list. -/
def pairsOf {α : Type} : List α → List (α × α)
  | [] => []
  | x :: rest => rest.map (fun y => (x, y)) ++ pairsOf rest

mutual

/-- Why two fields with one response name cannot be merged. Here and below the first argument bounds how
deeply sets and fragments are followed, and `exclusive` tells that the fields can never apply to one
object. -/
def fieldConflict (scope : Scope) : Nat → Bool → String × Selected × Selected →
    OverlapM (Option Conflict)
  | 0, _, _ => return none
  | fuel + 1, exclusive, (name, a, b) => do
    -- once two fields exclude each other, so do the fields selected inside of them
    let exclusive := exclusive || onDifferentObjects scope.schema a b
    match headConflict? scope.schema exclusive a b, a.set?, b.set? with
    | some reason, _, _ => return some (name, reason)
    | none, some x, some y =>
      let conflicts ← betweenSets scope fuel exclusive
        (fieldSet scope.schema (a.type.map TypeRef.base) x)
        (fieldSet scope.schema (b.type.map TypeRef.base) y)
      return if conflicts.isEmpty then none else some (name, .subfields conflicts)
    | none, _, _ => return none

/-- The conflicts between the fields of two sets. -/
def betweenFields (scope : Scope) : Nat → Bool → FieldSet → FieldSet → OverlapM (List Conflict)
  | 0, _, _, _ => return []
  | fuel + 1, exclusive, a, b =>
    (commonPairs a.fields b.fields).filterMapM (fieldConflict scope fuel exclusive)

/-- The conflicts between a set and a fragment, and the fragments that it spreads. -/
def withFragment (scope : Scope) : Nat → Bool → FieldSet → String → OverlapM (List Conflict)
  | 0, _, _, _ => return []
  | fuel + 1, exclusive, a, name => do
    if !(← noteWithFragment a.place name exclusive) then return []
    match scope.document.fragment? name with
    | none => return []
    | some f =>
      let b := fragmentSet scope.schema f
      -- a fragment that spreads itself is not compared with itself
      if a.place = b.place then return []
      let direct ← betweenFields scope fuel exclusive a b
      -- fragments spread there belong to the fragment as well
      let further ← b.spreads.mapM (withFragment scope fuel exclusive a)
      return direct ++ further.flatten

/-- The conflicts between two fragments, and the fragments that they spread. -/
def betweenFragments (scope : Scope) : Nat → Bool → String → String → OverlapM (List Conflict)
  | 0, _, _, _ => return []
  | fuel + 1, exclusive, name, other => do
    if name = other then return []
    if !(← noteFragments name other exclusive) then return []
    match scope.document.fragment? name, scope.document.fragment? other with
    | some f, some g =>
      let a := fragmentSet scope.schema f
      let b := fragmentSet scope.schema g
      let direct ← betweenFields scope fuel exclusive a b
      let second ← b.spreads.mapM (betweenFragments scope fuel exclusive name)
      let first ← a.spreads.mapM fun inner => betweenFragments scope fuel exclusive inner other
      return direct ++ second.flatten ++ first.flatten
    | _, _ => return []

/-- The conflicts between two sets, with the fragments that they spread. -/
def betweenSets (scope : Scope) : Nat → Bool → FieldSet → FieldSet → OverlapM (List Conflict)
  | 0, _, _, _ => return []
  | fuel + 1, exclusive, a, b => do
    let direct ← betweenFields scope fuel exclusive a b
    let second ← b.spreads.mapM (withFragment scope fuel exclusive a)
    let first ← a.spreads.mapM (withFragment scope fuel exclusive b)
    let both ← a.spreads.mapM fun name =>
      b.spreads.mapM (betweenFragments scope fuel exclusive name)
    return direct ++ second.flatten ++ first.flatten ++ both.flatten.flatten

end

/-- The conflicts of a set with the fragments that it spreads, and of these with each other. -/
def spreadConflicts (scope : Scope) (fuel : Nat) (set : FieldSet) :
    List String → OverlapM (List Conflict)
  | [] => return []
  | name :: rest => do
    let own ← withFragment scope fuel false set name
    let others ← rest.mapM (betweenFragments scope fuel false name)
    return own ++ others.flatten ++ (← spreadConflicts scope fuel set rest)

/-- The conflicts inside of a set of selections on a type. -/
def setConflicts (scope : Scope) (fuel : Nat) (parent : Option String) (set : SelectionSet) :
    OverlapM (List Conflict) := do
  let fields := fieldSet scope.schema parent set
  let within ← (fields.fields.flatMap fun (name, xs) =>
    (pairsOf xs).map fun (x, y) => (name, x, y)).filterMapM (fieldConflict scope fuel false)
  return within ++ (← spreadConflicts scope fuel fields fields.spreads)

/-! ## Bounds -/

mutual

/-- The number of selections in selections. -/
def selectionCount : List Selection → Nat
  | [] => 0
  | selection :: rest => selectionCountOne selection + selectionCount rest

/-- The number of selections in a selection, itself included. -/
def selectionCountOne : Selection → Nat
  | .leaf _ => 1
  | .spread _ _ => 1
  | .branch _ _ selections => selectionCount selections + 1
  | .inline _ _ _ selections => selectionCount selections + 1

end

/-- A bound for the depth to which the sets and fragments of a document are followed: on the way down each
pair that is remembered is met once, and between two of them only sets inside of sets are entered. -/
def overlapBound (d : Document) : Nat :=
  let sets := d.operations.map Operation.set ++ d.fragments.map Fragment.set
  let count := sets.foldl (fun count set => count + selectionCount set.selections) d.length
  Nat.pow (count + 4) 4

end SnippetAudit.GraphQL.Rules
