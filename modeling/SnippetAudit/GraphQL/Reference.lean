import SnippetAudit.GraphQL.Schema

/-!
# References inside a document

Selections refer to fragments by spreading them, and values refer to variables. Both are followed through
the fragments that an operation reaches.

## What this module delivers

- `Scope`: a document to be judged by a schema;
- `spreadsIn`, `reachedFragments`: the fragments that selections spread, and all that they reach;
- `VariableUse`, `usesInOperation`, `usesReached`: the variables that are used, with the type expected in
  their place.
-/

set_option autoImplicit false

namespace SnippetAudit.GraphQL

/-- A document to be judged by a schema. -/
structure Scope where
  schema : Schema
  document : Document
  /-- What is being looked at is part of a subscription. -/
  live : Bool := false

/-! ## Fragments -/

mutual

/-- The fragments that the sets inside of selections spread, those of the last set first. -/
def spreadsInside : List Selection → List String
  | [] => []
  | selection :: rest => spreadsInside rest ++ spreadsInsideOne selection

/-- The fragments that the set of a selection spreads, the direct ones first. -/
def spreadsInsideOne : Selection → List String
  | .leaf _ => []
  | .spread _ _ => []
  | .branch _ _ selections => spreadsDirect selections ++ spreadsInside selections
  | .inline _ _ _ selections => spreadsDirect selections ++ spreadsInside selections

/-- The fragments that stand among selections themselves. -/
def spreadsDirect : List Selection → List String
  | [] => []
  | .spread name _ :: rest => name :: spreadsDirect rest
  | _ :: rest => spreadsDirect rest

end

/-- The fragments that selections spread: the direct ones first, then those of the sets inside, from
the last set to the first. -/
def spreadsIn (selections : List Selection) : List String :=
  spreadsDirect selections ++ spreadsInside selections

/-- The fragments of a document that are new among names, with all names known after them. -/
def newFragments (d : Document) : List String → List String → List Fragment × List String
  | known, [] => ([], known)
  | known, name :: rest =>
    if known.contains name then newFragments d known rest
    else
      let (found, known) := newFragments d (name :: known) rest
      match d.fragment? name with
      | some f => (f :: found, known)
      | none => (found, known)

/-- The fragments reached from sets of selections, the last set first; at most `fuel` sets are looked
at, and `known` are the names met before. -/
def reachedFrom (d : Document) : Nat → List String → List (List Selection) → List Fragment
  | 0, _, _ => []
  | _, _, [] => []
  | fuel + 1, known, selections :: waiting =>
    let (found, known) := newFragments d known (spreadsIn selections)
    found ++
      reachedFrom d fuel known ((found.map fun f => f.set.selections).reverse ++ waiting)

/-- The fragments that an operation reaches. -/
def reachedFragments (d : Document) (o : Operation) : List Fragment :=
  reachedFrom d (d.fragments.length + 1) [] [o.set.selections]

/-! ## Variables -/

/-- A variable in use, with what is expected in its place: a type if it is known, and whether there is a
default. -/
structure VariableUse where
  name : String
  type : Option TypeRef
  hasDefault : Bool
  deriving Repr

/-- The input of a name among inputs. -/
def inputOf? (inputs : List InputField) (name : String) : Option InputField :=
  inputs.find? fun f => f.name == name

/-- The fields of an input object that a type is built on. -/
def inputFieldsOf (s : Schema) (type : TypeRef) : List InputField :=
  match s.body? type.base with
  | some (.inputObject fields _) => fields
  | _ => []

/-- The input that a field of an object stands for, where the type of the object is known. -/
def objectInput? (s : Schema) (type : Option TypeRef) (name : String) : Option InputField :=
  type.bind fun type => inputOf? (inputFieldsOf s type) name

mutual

/-- The variables used in a literal. -/
def usesInLiteral (s : Schema) (type : Option TypeRef) (hasDefault : Bool) :
    Literal → List VariableUse
  | .var name => [⟨name, type, hasDefault⟩]
  | .list items => usesInItems s (type.map TypeRef.itemType) items
  | .object fields => usesInFields s type fields
  | _ => []

/-- The variables used in the items of a list. -/
def usesInItems (s : Schema) (type : Option TypeRef) : List Literal → List VariableUse
  | [] => []
  | item :: rest => usesInLiteral s type false item ++ usesInItems s type rest

/-- The variables used in the fields of an object. -/
def usesInFields (s : Schema) (type : Option TypeRef) :
    List (String × Literal) → List VariableUse
  | [] => []
  | (name, value) :: rest =>
    let input? := objectInput? s type name
    usesInLiteral s (input?.map InputField.type) (input?.any InputField.hasDefault) value ++
      usesInFields s type rest

end

/-- The variables used in arguments that stand for given inputs. -/
def usesInArguments (s : Schema) (inputs : List InputField) (arguments : List Argument) :
    List VariableUse :=
  arguments.flatMap fun a =>
    let input? := inputOf? inputs a.name
    usesInLiteral s (input?.map InputField.type) (input?.any InputField.hasDefault) a.value

/-- The inputs that the arguments of a directive stand for; those of a directive that is not known are
taken for arguments of the field around it. -/
def directiveInputs (s : Schema) (around : List InputField) (d : Directive) : List InputField :=
  ((s.directive? d.name).map DirectiveRule.arguments).getD around

/-- The variables used in directives inside a field with the inputs `around`. -/
def usesInDirectives (s : Schema) (around : List InputField) (ds : List Directive) :
    List VariableUse :=
  ds.flatMap fun d => usesInArguments s (directiveInputs s around d) d.arguments

/-- The name of a type with selections. -/
def compositeOf? (s : Schema) (name : String) : Option String :=
  if s.typeMeets name TypeBody.isComposite then some name else none

/-- The type that the selections of a field belong to. -/
def fieldParent? (s : Schema) (site? : Option FieldSite) : Option String :=
  site?.bind fun site => compositeOf? s site.field.type.base

/-- The type that selections with a condition belong to, inside selections of the type `parent`. -/
def conditionParent? (s : Schema) (parent : Option String) (condition : Option String) :
    Option String :=
  match condition with
  | some name => compositeOf? s name
  | none => parent

/-- The inputs of a field. -/
def siteInputs (site? : Option FieldSite) : List InputField :=
  (site?.map fun site => site.field.arguments).getD []

/-- The field of a type that may be unknown. -/
def siteOf? (s : Schema) (parent : Option String) (name : String) : Option FieldSite :=
  parent.bind fun parent => s.field? parent name

/-- The variables used by a field itself. -/
def usesInHead (s : Schema) (site? : Option FieldSite) (f : FieldHead) : List VariableUse :=
  usesInArguments s (siteInputs site?) f.arguments ++ usesInDirectives s (siteInputs site?) f.directives

mutual

/-- The variables used in selections of the type `parent` inside a field with the inputs `around`. -/
def usesInSelections (s : Schema) (parent : Option String) (around : List InputField) :
    List Selection → List VariableUse
  | [] => []
  | selection :: rest =>
    usesInSelection s parent around selection ++ usesInSelections s parent around rest

/-- The variables used in a selection. -/
def usesInSelection (s : Schema) (parent : Option String) (around : List InputField) :
    Selection → List VariableUse
  | .leaf f => usesInHead s (siteOf? s parent f.name) f
  | .branch f _ selections =>
    let site? := siteOf? s parent f.name
    usesInHead s site? f ++ usesInSelections s (fieldParent? s site?) (siteInputs site?) selections
  | .spread _ directives => usesInDirectives s around directives
  | .inline condition directives _ selections =>
    usesInDirectives s around directives ++
      usesInSelections s (conditionParent? s parent condition) around selections

end

/-- The type that the selections of an operation belong to. -/
def operationParent? (s : Schema) (o : Operation) : Option String :=
  (s.root? o.kind).bind (compositeOf? s)

/-- The variables used in an operation itself. -/
def usesInOperation (s : Schema) (o : Operation) : List VariableUse :=
  usesInDirectives s [] o.directives ++
    usesInSelections s (operationParent? s o) [] o.set.selections

/-- The variables used in a fragment itself. -/
def usesInFragment (s : Schema) (f : Fragment) : List VariableUse :=
  usesInDirectives s [] f.directives ++
    usesInSelections s (compositeOf? s f.condition) [] f.set.selections

/-- The variables used in an operation and in the fragments that it reaches. -/
def usesReached (scope : Scope) (o : Operation) : List VariableUse :=
  usesInOperation scope.schema o ++
    (reachedFragments scope.document o).flatMap (usesInFragment scope.schema)

end SnippetAudit.GraphQL
