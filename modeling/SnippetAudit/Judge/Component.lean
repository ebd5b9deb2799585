import SnippetAudit.Component.Finding
import SnippetAudit.Component.Walk
import SnippetAudit.Extraction.Extract
import SnippetAudit.Judge.Request
import SnippetAudit.Outcome

/-!
# Judging component markup

A snippet of markup passes when every component that it uses has a contract and meets it. Unknown
components are counted besides, up to the usage at which a judge breaks down.

## What this module delivers

- `Account`: an outcome with the number of unknown components;
- `accountOf`: the account of usages and the findings about them;
- `judgeMarkup`: the account of a snippet under a resolver;
- `attemptMarkup`: likewise, where getting at the code or parsing it may break down;
- `ContractsField`, `resolverOf`: contracts of any shape, and the resolver they lead to;
- `ComponentRequest`, `judgeComponents`: the outcome of a submitted snippet with contracts or a package.
-/

set_option autoImplicit false

namespace SnippetAudit.Judge

open Component Contract

/-- An outcome with the number of unknown components that were counted on the way. -/
structure Account where
  outcome : Outcome
  unknown : Nat := 0
  deriving Repr, DecidableEq

/-- The outcome of a snippet without components. -/
def nothingFound : Outcome := .success "No components found to validate."

/-- Notes at the end of an explanation. -/
def noteSuffix : List String → String
  | [] => ""
  | notes => " Notes: " ++ "; ".intercalate notes

/-- The tags of usages, each once, in the order of their first use. -/
def tagsOf (usages : List Usage) : List String :=
  distinctNames (usages.map Usage.tag)

/-- The outcome of usages of whose findings none is a breakdown. -/
def outcomeOf (usages : List Usage) (findings : List Finding) : Outcome :=
  let suffix := noteSuffix (findings.flatMap Finding.notes)
  match findings.filterMap Finding.problem? with
  | [] =>
    .success ("All components validated successfully. Found components: " ++
      ", ".intercalate (tagsOf usages) ++ "." ++ suffix)
  | problems => .failed ("Validation errors: " ++ "; ".intercalate problems ++ suffix)

/-- The account of usages and the findings about them: the first breakdown decides. -/
def accountOf (usages : List Usage) (findings : List Finding) : Account :=
  let unknown :=
    -- behind a breakdown nothing is judged any more
    (findings.takeWhile fun f => f.breakdown?.isNone).countP fun f => f.isUnknown
  match findings.findSome? Finding.breakdown? with
  | some message => ⟨.failed ("Failed to parse code block: " ++ message), unknown⟩
  | none => ⟨outcomeOf usages findings, unknown⟩

/-- The account of a snippet under a resolver. -/
def judgeMarkup (env : Environment) (resolver : Resolver) (code : Text) : Account :=
  let cleaned := Extraction.extract Extraction.markup code
  if cleaned.isEmpty then ⟨nothingFound, 0⟩
  else
    match (findUsages env resolver.walkRules cleaned).usages with
    | [] => ⟨nothingFound, 0⟩
    | usages => accountOf usages (usages.map (inspect resolver))

/-- The message with which getting at the code of a snippet or parsing it breaks down, if it does. -/
def markupBreakdown? (env : Environment) (code : Text) : Option String :=
  match env.breakdown .markupExtraction code with
  | some message => some message
  | none =>
    let cleaned := Extraction.extract Extraction.markup code
    -- a snippet of which nothing is left is not parsed
    if cleaned.isEmpty then none else env.breakdown .markupParse cleaned

/-- The account of a snippet under a resolver, unless getting at the code or parsing it breaks down. -/
def attemptMarkup (env : Environment) (resolver : Resolver) (code : Text) : Account :=
  match markupBreakdown? env code with
  | some message => ⟨.failed ("Failed to parse code block: " ++ message), 0⟩
  | none => judgeMarkup env resolver code

/-- What is submitted for the contracts of tags: plain data of any shape, or contracts by tags. -/
inductive ContractsField where
  | data (v : Value)
  | contracts (byTag : Members Submitted)

/-- The contracts by their tags, which may be left out; otherwise the type of what is given. -/
def ContractsField.byTag? : ContractsField → Except String (Option (Members Submitted))
  | .contracts byTag => .ok (some byTag)
  | .data .null => .ok none
  | .data (.object members) => .ok (some (members.map fun (tag, document) => (tag, .document document)))
  | .data v => .error v.typeName

/-- The contracts as a field of a request. -/
def ContractsField.read (c : ContractsField) : Field (Option (Members Submitted)) :=
  c.byTag?.mapError fun _ => ⟨"schemas", "Input should be a valid dictionary"⟩

/-- The resolver of the contracts or of the package, whichever is given. -/
def resolverOf (c : ContractsField) (packageName : Option String) : Except ResolverError Resolver :=
  match c.byTag? with
  | .ok contracts => Resolver.build contracts packageName
  | .error type => .error (if packageName.isSome then .notExactlyOne else .notMapping type)

/-- A submitted snippet of markup. -/
structure ComponentRequest where
  code : Value
  schemas : ContractsField := .data .null
  packageName : Value := .null

/-- The issue of a request that does not ask for exactly one way to a resolver. -/
def notExactlyOneIssue : Issue := ⟨none, "Value error, " ++ ResolverError.notExactlyOne.message⟩

/-- The failure of a snippet for which there is no resolver. -/
def withoutResolver : ResolverError → Outcome
  | .unsupportedPackage e => .failed e.message
  | e => .failed ("Invalid input: schemas: " ++ e.message)

/-- The account of a submitted snippet. -/
def judgeComponents (env : Environment) (r : ComponentRequest) : Account :=
  match nonEmptyText "code" r.code, r.schemas.read, optionalName "package_name" r.packageName with
  | .ok code, .ok schemas, .ok packageName =>
    if schemas.isNone == packageName.isNone then ⟨.failed (describeIssues [notExactlyOneIssue]), 0⟩
    else
      match Resolver.build schemas packageName with
      | .ok resolver => attemptMarkup env resolver code.toList
      | .error e => ⟨withoutResolver e, 0⟩
  | code, schemas, packageName =>
    ⟨.failed (describeIssues (issueOf code ++ issueOf schemas ++ issueOf packageName)), 0⟩

end SnippetAudit.Judge
