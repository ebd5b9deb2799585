import SnippetAudit.Catalogue.Documents
import SnippetAudit.GraphQL.Parser.Document
import SnippetAudit.GraphQL.Validation
import SnippetAudit.Judge.Environment
import SnippetAudit.Judge.Request
import SnippetAudit.Markdown.Operations
import SnippetAudit.Outcome

/-!
# Judging GraphQL operations

An operation passes when it can be parsed and has no fault under the schema that is asked for. A payload in
markdown may hold several operations, which are found and cleaned first; a text that is known to be one
operation goes to the parser as it is. Whatever breaks down on the way, apart from an operation's own syntax,
fails the whole payload.

## What this module delivers

- `Mishap`: why judging broke down;
- `judgeSource?`: the outcome of one source under a schema;
- `judgeOperation`: the outcome of a submitted operation;
- `judgePayload`: the outcome of a submitted payload.
-/

set_option autoImplicit false

namespace SnippetAudit.Judge

open GraphQL

/-- The name of the schema that is asked for if none is named. -/
def defaultSchema : String := "admin"

/-- Why judging broke down. -/
inductive Mishap where
  | preset (e : Extraction.UnknownPreset)
  | load (e : LoadError)
  /-- The schema cannot be used. -/
  | schema (fault : String)
  /-- A step broke down for reasons of its own. -/
  | step (message : String)
  /-- There is nothing to explain. -/
  | outcome (e : OutcomeError)

/-- The wording of a mishap; that of an unknown preset is shown in quotes. -/
def Mishap.message : Mishap → String
  | .preset e => Text.quoteString e.message
  | .load e => e.message
  | .schema fault => fault
  | .step message => message
  | .outcome e => e.message

/-- The outcome where judging broke down. -/
def afterMishap (m : Mishap) : Outcome := .failed ("Validation error: " ++ m.message)

/-! ## One operation -/

/-- The outcome of a text that cannot be parsed. -/
def syntaxFailure (source : Text) (e : SyntaxError) : Outcome :=
  let location := locationOf source e.start
  .failed ("GraphQL syntax error: " ++ e.message ++ " (Line " ++ toString location.line ++
    ", Column " ++ toString location.column ++ ")")

/-- The outcome of a document under a schema that can be used. -/
def judgeDocument (s : Schema) (schemaName : String) (d : Document) : Outcome :=
  match validate s d with
  | [] =>
    .success ("Successfully validated GraphQL " ++ d.operationName ++ " against the " ++ schemaName ++
      " schema.")
  | faults => .failed ("GraphQL validation errors: " ++ "; ".intercalate faults)

/-- The outcome of a source under a schema. Whether the schema can be used shows once there is a document. -/
def judgeSource? (breakdown : Breakdowns) (s : Schema) (schemaName : String) (source : Text) :
    Except Mishap Outcome :=
  match breakdown .operationParse source, parse source with
  | some message, _ => .error (.step message)
  | none, .error e => .ok (syntaxFailure source e)
  | none, .ok document =>
    match s.fault? with
    | some fault => .error (.schema fault)
    | none => .ok (judgeDocument s schemaName document)

/-! ## Requests -/

/-- The failure of a request for a schema that the catalogue does not list. -/
def unlisted (c : Catalogue) (schemaName : String) : Outcome :=
  let supported := if c.supported.isEmpty then "none" else ", ".intercalate c.supported
  .failed ("Unsupported schema name: " ++ schemaName ++ ". Supported schemas: " ++ supported ++ ".")

/-- The outcome of a request: a text and the name of a schema that the catalogue must list. -/
def judgeRequest (c : Catalogue) (code schemaName : Value)
    (judge : Text → String → Except Mishap Outcome) : Outcome :=
  match nonEmptyText "code" code, nonEmptyText "schema_name" schemaName with
  | .ok code, .ok schemaName =>
    if c.supported.contains schemaName then
      match judge code.toList schemaName with
      | .ok outcome => outcome
      | .error m => afterMishap m
    else unlisted c schemaName
  | code, schemaName => .failed (describeIssues (issueOf code ++ issueOf schemaName))

/-- The schema of a name. -/
def schemaOf (c : Catalogue) (schemaName : String) : Except Mishap Schema :=
  (c.schema schemaName).mapError .load

/-- The outcome of a text that is one operation. -/
def judgeOperation (c : Catalogue) (code schemaName : Value) (breakdown : Breakdowns := .never) :
    Outcome :=
  judgeRequest c code schemaName fun source name =>
    match schemaOf c name with
    | .error m => .error m
    | .ok s => judgeSource? breakdown s name source

/-! ## Payloads -/

/-- The operations cleaned by a preset, without those of which nothing is left. -/
def cleanedBy (preset : String) (operations : List Text) : Except Mishap (List Text) :=
  match operations.mapM (Extraction.extractNamed preset) with
  | .error e => .error (.preset e)
  | .ok cleaned => .ok (cleaned.filter fun operation => !operation.isEmpty)

/-- The operations of a payload; a preset may clean them further. -/
def operationsOf (breakdown : Breakdowns) (preset? : Option String) (payload : Text) :
    Except Mishap (List Text) :=
  match breakdown .payloadExtraction payload, preset? with
  | some message, _ => .error (.step message)
  | none, some preset => cleanedBy preset (Markdown.findOperations payload)
  | none, none => .ok (Markdown.findOperations payload)

/-- The outcome of a payload without operations. -/
def nothingToParse : Outcome :=
  .skipped "No GraphQL operation found in the provided markdown code block."

/-- The outcomes of several operations as one. -/
def mergeOperations : List Outcome → Except Mishap Outcome
  | [outcome] => .ok outcome
  | outcomes => (Outcome.merge "Operation" outcomes).mapError .outcome

/-- The outcome of some operations. -/
def judgeOperations (breakdown : Breakdowns) (c : Catalogue) (schemaName : String) :
    List Text → Except Mishap Outcome
  | [] => .ok nothingToParse
  | operations =>
    match schemaOf c schemaName with
    | .error m => .error m
    | .ok s =>
      match operations.mapM (judgeSource? breakdown s schemaName) with
      | .error m => .error m
      | .ok outcomes => mergeOperations outcomes

/-- The outcome of a payload in markdown. -/
def judgePayload (c : Catalogue) (code schemaName : Value) (preset? : Option String := none)
    (breakdown : Breakdowns := .never) : Outcome :=
  judgeRequest c code schemaName fun payload name =>
    match operationsOf breakdown preset? payload with
    | .error m => .error m
    | .ok operations => judgeOperations breakdown c name operations

end SnippetAudit.Judge
