import SnippetAudit.Data.Distinct
import SnippetAudit.GraphQL.Rules.Value

/-!
# Rules on arguments and directives

An argument must be one that its field or directive has, may be given once, and must be given where it is
required. A directive must be known, may stand at its places only, and only once where it is not repeatable.
A document may define directives itself, and its definitions win over those of the schema.

## What this module delivers

- `duplicateArguments`, `unknownArgument`, `missingArguments`: rules on arguments;
- `placeFaults`, `repeatedDirectives`, `directiveArgumentFaults`: rules on directives.
-/

set_option autoImplicit false

namespace SnippetAudit.GraphQL.Rules

/-! ## Arguments -/

/-- The names that come more than once, in the order of their first place. -/
def repeatedNames (names : List String) : List String :=
  (distinctNames names).filter fun name => names.count name > 1

/-- Arguments given more than once. -/
def duplicateArguments (arguments : List Argument) : List String :=
  (repeatedNames (arguments.map Argument.name)).map fun name =>
    "There can be only one argument named '" ++ name ++ "'."

/-- An argument that is not among those of its owner. -/
def unknownArgument (owner : String) (known : List String) (name : String) : List String :=
  if known.contains name then []
  else
    ["Unknown argument '" ++ name ++ "' on " ++ owner ++ "." ++
      didYouMean "" (suggestions name known)]

/-- Required arguments that are not given. -/
def missingArguments (owner : String) (inputs : List InputField) (arguments : List Argument) :
    List String :=
  let given := arguments.map Argument.name
  (inputs.filter fun input => input.isRequired && !given.contains input.name).map fun input =>
    "Argument '" ++ owner ++ "(" ++ input.name ++ ":)' of type '" ++ input.type.text ++
      "' is required, but it was not provided."

/-- What is said about the values of arguments that stand for given inputs. -/
def argumentValueFaults (s : Schema) (inputs : List InputField) (a : Argument) : List String :=
  literalFaults s ((inputOf? inputs a.name).map InputField.type) a.value

/-! ## Directives -/

/-- The definition of an input as an input. -/
def inputOfDefinition (i : InputDefinition) : InputField :=
  { name := i.name, type := i.type, hasDefault := i.default.isSome }

/-- The definition of a directive as a directive of a schema. -/
def ruleOfDeclaration (d : DirectiveDeclaration) : DirectiveRule :=
  ⟨d.name, d.arguments.map inputOfDefinition, d.repeatable, d.places⟩

/-- The directive of a name: the last one that the document defines, or else that of the schema. -/
def directiveRule? (scope : Scope) (name : String) : Option DirectiveRule :=
  match scope.document.directiveDeclarations.reverse.find? fun d => d.name == name with
  | some d => some (ruleOfDeclaration d)
  | none => scope.schema.directive? name

/-- The directive is not known, or may not stand at a place. -/
def placeFaults (rule? : Option DirectiveRule) (place : Place) (name : String) : List String :=
  match rule? with
  | some rule =>
    if rule.places.isEmpty then ["Unknown directive '@" ++ name ++ "'."]
    else if rule.places.contains place then []
    else ["Directive '@" ++ name ++ "' may not be used on " ++ place.text ++ "."]
  | none => ["Unknown directive '@" ++ name ++ "'."]

/-- Directives that stand more than once where they may stand once only; `seen` are those that stand
there already. -/
def repeatedDirectives (scope : Scope) (seen : List String) : List Directive → List String
  | [] => []
  | d :: rest =>
    match directiveRule? scope d.name with
    | some rule =>
      if rule.repeatable then repeatedDirectives scope seen rest
      else if seen.contains d.name then
        ("The directive '@" ++ d.name ++ "' can only be used once at this location.") ::
          repeatedDirectives scope seen rest
      else repeatedDirectives scope (d.name :: seen) rest
    | none => repeatedDirectives scope seen rest

/-- What is said about the arguments of a directive, inside a field with the inputs `around`. -/
def directiveArgumentFaults (scope : Scope) (around : List InputField) (d : Directive) :
    List String :=
  let rule? := directiveRule? scope d.name
  let owner := "@" ++ d.name
  let unknown := match rule? with
    | some rule =>
      d.arguments.flatMap fun a =>
        unknownArgument ("directive '" ++ owner ++ "'") (rule.arguments.map InputField.name) a.name
    | none => []
  let values := d.arguments.flatMap
    (argumentValueFaults scope.schema (directiveInputs scope.schema around d))
  let missing := match rule? with
    | some rule => missingArguments owner rule.arguments d.arguments
    | none => []
  unknown ++ duplicateArguments d.arguments ++ values ++ missing

end SnippetAudit.GraphQL.Rules
