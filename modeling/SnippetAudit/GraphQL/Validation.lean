import SnippetAudit.GraphQL.Rules.Delivery
import SnippetAudit.GraphQL.Rules.Field
import SnippetAudit.GraphQL.Rules.Operation
import SnippetAudit.GraphQL.Rules.Overlap

/-!
# Validation

A document is walked once, each definition in its turn and what it holds in the order of the text. At every
place the rules that apply there speak in a fixed order; some wait until what is inside has been walked. What
they say is the list of the document's faults.

## What this module delivers

- `Notice`: a fault, a label, or a set of selections whose fields are to be compared;
- `selectionsNotices`, `definitionNotices`: the walk;
- `documentFaults`: the faults of a document;
- `validate`: the faults that are told, of which there is a limit.
-/

set_option autoImplicit false

namespace SnippetAudit.GraphQL

open Rules

/-- What the walk comes upon: a fault, a label that must not have come before, or a set of selections on a
type, whose conflicts depend on what was compared before. -/
inductive Notice where
  | fault (message : String)
  | label (name : String)
  | compare (parent : Option String) (set : SelectionSet)

/-- Faults as notices. -/
def faultNotices (messages : List String) : List Notice := messages.map .fault

/-! ## Directives -/

/-- What the walk comes upon in the label of a directive. -/
def labelNotices (d : Directive) : List Notice :=
  match deliveryLabel? d with
  | some (.ok label) => [.label label]
  | some (.error message) => [.fault message]
  | none => []

/-- What the walk comes upon in a directive. -/
def directiveNotices (scope : Scope) (stand : Stand) (d : Directive) : List Notice :=
  faultNotices
      (placeFaults (directiveRule? scope d.name) stand.place d.name ++
        deliveryFaults scope stand d) ++
    labelNotices d ++
    faultNotices
      (streamFaults stand d ++ directiveArgumentFaults scope (siteInputs stand.field?) d)

/-- What the walk comes upon in directives. -/
def directivesNotices (scope : Scope) (stand : Stand) (ds : List Directive) : List Notice :=
  ds.flatMap (directiveNotices scope stand)

/-! ## Selections -/

/-- What is said about the arguments of a field. -/
def argumentNotices (s : Schema) (site? : Option FieldSite) (arguments : List Argument) :
    List String :=
  arguments.flatMap fun a =>
    let unknown := match site? with
      | some site =>
        unknownArgument ("field '" ++ site.text ++ "'") (site.field.arguments.map InputField.name)
          a.name
      | none => []
    unknown ++ argumentValueFaults s (siteInputs site?) a

/-- What the walk comes upon in a field before its selections. -/
def fieldEntry (scope : Scope) (parent : Option String) (f : FieldHead) (hasSelections : Bool) :
    List Notice :=
  let s := scope.schema
  let site? := siteOf? s parent f.name
  faultNotices
      (selectionFaults s site? f.name hasSelections ++ unknownField s parent f.name ++
        repeatedDirectives scope [] f.directives ++ duplicateArguments f.arguments ++
        argumentNotices s site? f.arguments) ++
    directivesNotices scope ⟨.field, parent, site?⟩ f.directives

/-- What the walk comes upon in a field behind its selections. -/
def fieldExit (scope : Scope) (parent : Option String) (f : FieldHead) : List Notice :=
  match siteOf? scope.schema parent f.name with
  | some site => faultNotices (missingArguments site.text site.field.arguments f.arguments)
  | none => []

/-- What the walk comes upon in a spread fragment. -/
def spreadEntry (scope : Scope) (parent : Option String) (around : Option FieldSite) (name : String)
    (ds : List Directive) : List Notice :=
  faultNotices (spreadFaults scope parent name ++ repeatedDirectives scope [] ds) ++
    directivesNotices scope ⟨.fragmentSpread, parent, around⟩ ds

/-- What the walk comes upon in selections with a condition before they are walked. -/
def inlineEntry (scope : Scope) (parent : Option String) (around : Option FieldSite)
    (condition : Option String) (ds : List Directive) : List Notice :=
  let s := scope.schema
  faultNotices
      (conditionFaults s "Fragment" condition ++
        overlapFaults s "Fragment" parent (conditionParent? s parent condition) ++
        repeatedDirectives scope [] ds ++ (condition.map (unknownType scope)).getD []) ++
    directivesNotices scope ⟨.inlineFragment, parent, around⟩ ds

mutual

/-- What the walk comes upon in selections on a type, inside the field `around`. -/
def selectionsNotices (scope : Scope) (parent : Option String) (around : Option FieldSite) :
    List Selection → List Notice
  | [] => []
  | selection :: rest =>
    selectionNotices scope parent around selection ++ selectionsNotices scope parent around rest

/-- What the walk comes upon in a selection. -/
def selectionNotices (scope : Scope) (parent : Option String) (around : Option FieldSite) :
    Selection → List Notice
  | .leaf f => fieldEntry scope parent f false ++ fieldExit scope parent f
  | .branch f place selections =>
    let site? := siteOf? scope.schema parent f.name
    let inner := fieldParent? scope.schema site?
    fieldEntry scope parent f true ++
      -- a set of selections is compared when it is entered, before its selections are walked
      .compare inner ⟨place, selections⟩ :: selectionsNotices scope inner site? selections ++
      fieldExit scope parent f
  | .spread name ds => spreadEntry scope parent around name ds
  | .inline condition ds place selections =>
    let inner := conditionParent? scope.schema parent condition
    inlineEntry scope parent around condition ds ++
      .compare inner ⟨place, selections⟩ :: selectionsNotices scope inner around selections

end

/-- What the walk comes upon in a set of selections on a type. -/
def setNotices (scope : Scope) (parent : Option String) (set : SelectionSet) : List Notice :=
  .compare parent set :: selectionsNotices scope parent none set.selections

/-! ## Definitions -/

/-- What the walk comes upon in the definition of a variable. -/
def variableNotices (scope : Scope) (v : VariableDefinition) : List Notice :=
  let s := scope.schema
  let expected := (s.known? v.type).filter fun type => s.typeMeets type.base TypeBody.isInput
  faultNotices
      (inputTypeFaults s v ++ repeatedDirectives scope [] v.directives ++
        unknownType scope v.type.base ++ (v.default.map (literalFaults s expected)).getD []) ++
    directivesNotices scope ⟨.variableDefinition, none, none⟩ v.directives

/-- What the walk comes upon in an operation, of which `before` are the operations in front of it. -/
def operationNotices (scope : Scope) (before : List Operation) (o : Operation) : List Notice :=
  let scope := { scope with live := o.kind == .subscription }
  faultNotices (operationFaults scope before o) ++
    o.parameters.flatMap (variableNotices scope) ++
    directivesNotices scope ⟨Place.ofOperation o.kind, none, none⟩ o.directives ++
    setNotices scope (operationParent? scope.schema o) o.set ++
    faultNotices (variableUseFaults scope o)

/-- A subscription among operations reaches a fragment. -/
def reachedLive (d : Document) (operations : List Operation) (f : Fragment) : Bool :=
  operations.any fun o =>
    o.kind == .subscription && (reachedFragments d o).any fun other => other.name == f.name

/-- What the walk comes upon in a fragment behind the definitions `before`; `cycles` are the cycles found
at it. -/
def fragmentNotices (scope : Scope) (before : List Definition) (cycles : List String) (f : Fragment) :
    List Notice :=
  let scope :=
    { scope with live := reachedLive scope.document (Document.operations before) f }
  let nameTaken :=
    if (Document.fragments before).any fun other => other.name == f.name then
      ["There can be only one fragment named '" ++ f.name ++ "'."]
    else []
  faultNotices
      (conditionFaults scope.schema (fragmentSubject f.name) (some f.condition) ++ nameTaken ++
        cycles ++ repeatedDirectives scope [] f.directives ++ unknownType scope f.condition) ++
    directivesNotices scope ⟨.fragmentDefinition, none, none⟩ f.directives ++
    setNotices scope (compositeOf? scope.schema f.condition) f.set

mutual

/-- What the walk comes upon in declarations of the type system. -/
def declarationsNotices (scope : Scope) : List Declaration → List Notice
  | [] => []
  | declaration :: rest => declarationNotices scope declaration ++ declarationsNotices scope rest

/-- What the walk comes upon in a declaration of the type system. -/
def declarationNotices (scope : Scope) : Declaration → List Notice
  | .mention type => faultNotices (unknownType scope type)
  | .directives place ds => directivesNotices scope ⟨place, none, none⟩ ds
  | .default value => faultNotices (duplicateFields value)
  | .part contents =>
    faultNotices (repeatedDirectives scope [] (Declaration.ownDirectives contents)) ++
      declarationsNotices scope contents

end

/-- Two subjects are one as far as directives on them are concerned. -/
def sameSubject : Subject → Subject → Bool
  | .schema, .schema => true
  | .directive _, _ => false
  | _, .directive _ => false
  | a, b => a.name? == b.name?

/-- The directives that stand on a subject in the definitions in front of one. -/
def earlierDirectives (subject : Subject) (before : List Definition) : List String :=
  before.flatMap fun definition => match definition with
    | .system other contents =>
      if sameSubject other subject then
        (Declaration.ownDirectives contents).map Directive.name
      else []
    | _ => []

/-- What the walk comes upon in a definition behind the definitions `before`. -/
def definitionNotices (scope : Scope) (before : List Definition) : Definition → List Notice
  | .operation o => operationNotices scope (Document.operations before) o
  | .fragment f =>
    -- the cycles are told at the fragment of the same number
    let earlier := (Document.fragments before).length
    let cycles := ((cyclesByFragment scope.document)[earlier]?).getD []
    fragmentNotices scope before cycles f
  | .system subject contents =>
    faultNotices
        (repeatedDirectives scope (earlierDirectives subject before)
          (Declaration.ownDirectives contents)) ++
      declarationsNotices scope contents

/-- What the walk comes upon in definitions behind the definitions `before`. -/
def definitionsNotices (scope : Scope) (before : List Definition) : List Definition → List Notice
  | [] => []
  | definition :: rest =>
    definitionNotices scope before definition ++
      definitionsNotices scope (before ++ [definition]) rest

/-! ## Documents -/

/-- A definition that cannot be executed. -/
def notExecutable : Definition → List String
  | .system subject _ =>
    let named := match subject.name? with
      | some name => "'" ++ name ++ "'"
      | none => "schema"
    ["The " ++ named ++ " definition is not executable."]
  | _ => []

/-- The faults that notices come to, where `labels` are those that came before. -/
def noticeFaults (scope : Scope) (labels : List String) : List Notice → OverlapM (List String)
  | [] => return []
  | .fault message :: rest => return message :: (← noticeFaults scope labels rest)
  | .label name :: rest => do
    if labels.contains name then return labelTaken :: (← noticeFaults scope labels rest)
    else noticeFaults scope (name :: labels) rest
  -- what is compared here is remembered for the sets that follow
  | .compare parent set :: rest => do
    let conflicts ← setConflicts scope (overlapBound scope.document) parent set
    return conflicts.map conflictText ++ (← noticeFaults scope labels rest)

/-- The faults of a document. -/
def documentFaults (s : Schema) (d : Document) : List String :=
  let scope : Scope := { schema := s, document := d }
  d.flatMap notExecutable ++ ((noticeFaults scope [] (definitionsNotices scope [] d)).run {}).run.1 ++
    unusedFragments d

/-- The number of faults that are told. -/
def faultLimit : Nat := 100

/-- The faults that are told: where there are more than the limit, the first ones and a last word. -/
def validate (s : Schema) (d : Document) : List String :=
  let faults := documentFaults s d
  if faults.length > faultLimit then
    faults.take faultLimit ++
      ["Too many validation errors, error limit reached. Validation aborted."]
  else faults

end SnippetAudit.GraphQL
