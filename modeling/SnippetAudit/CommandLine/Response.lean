import SnippetAudit.Batch.Document
import SnippetAudit.Catalogue.Directory
import SnippetAudit.CommandLine.Arguments
import SnippetAudit.Json.Writer
import SnippetAudit.Judge.Batch

/-!
# Answering a command line

A command line names a markdown file and the kind of its snippets. The answer is the report of their batch and
an exit code that tells whether the batch is valid; the batch may be written to a file besides. What cannot be
read ends everything.

## What this module delivers

- `Failure`: what ends everything;
- `Response`, `respond`: the answer to arguments;
- `answer`: the answer to a command line;
- `Response.store`: a file tree behind the answer.
-/

set_option autoImplicit false

namespace SnippetAudit.CommandLine

open Files Judge

/-- What ends everything. -/
inductive Failure where
  | access (path : Path) (e : AccessError)
  /-- A file is no text. -/
  | unreadable (e : Octets.DecodeError)
  /-- A file of contracts is no JSON. -/
  | malformed (e : JsonError)
  deriving DecidableEq, Repr

/-- The wording of the failures. -/
def Failure.message : Failure → String
  | .access path e => e.message path
  | .unreadable e => e.message
  | .malformed e => e.message

/-- The answer to a command line. -/
structure Response where
  exit : Nat
  /-- What is printed. -/
  printed : String := ""
  /-- A file to write, with its octets. -/
  written? : Option (Path × Octets) := none
  deriving DecidableEq, Repr

/-- The text of a file. -/
def readText (files : Access) (path : Path) : Except Failure Text :=
  match files.read path with
  | .error e => .error (.access path e)
  | .ok octets =>
    match octets.decode with
    | .error e => .error (.unreadable e)
    | .ok t => .ok (Text.universalNewlines t)

/-- The contracts in a file. -/
def readContracts (files : Access) (path : Path) : Except Failure ContractsField :=
  match readText files path with
  | .error e => .error e
  | .ok t =>
    match Json.read t with
    | .error e => .error (.malformed e)
    | .ok v => .ok (.data v)

/-- What the snippets of a kind are judged with. A file of contracts is asked for before a package. -/
def setupOf (files : Access) (a : Arguments) : Except Failure Setup :=
  match a.kind, a.contracts? with
  | .graphql, _ =>
    .ok {
      schemaName := .str a.schema
      catalogue := Catalogue.ofDirectory files (Path.ofText a.schemaDirectory) }
  | .components, some path =>
    (readContracts files (Path.ofText path)).map fun contracts => { contracts }
  | .components, none => .ok { packageName := a.package? }
  | _, _ => .ok {}

/-- The answer with a batch. -/
def present (output? : Option Text) (b : Batch) : Response where
  exit := if b.valid then 0 else 1
  printed := b.report ++ "\n"
  written? := output?.map fun t =>
    (Path.ofText t, Text.encode (Json.indented b.document).toList)

/-- The answer to arguments. -/
def respond (env : Environment) (files : Access) (a : Arguments) : Except Failure Response :=
  match readText files (Path.ofText a.input) with
  | .error e => .error e
  | .ok t =>
    match setupOf files a with
    | .error e => .error e
    | .ok setup => .ok (present a.output? (judgeMarkdown env a.kind setup t).batch)

/-- How the program is called. -/
def usage : String :=
  "usage: snippet-audit [-h] --kind \x7bjavascript,typescript,rust,graphql,components\x7d\n" ++
  "                     [--schema SCHEMA] [--schema-dir SCHEMA_DIR]\n" ++
  "                     [--package PACKAGE] [--schemas SCHEMAS] [--output OUTPUT]\n" ++
  "                     input\n"

/-- The answer to a command line; one that is refused gets no more than its exit code. -/
def answer (env : Environment) (files : Access) (line : List Text) : Except Failure Response :=
  match readArguments line with
  | .error _ => .ok { exit := 2 }
  | .ok none => .ok { exit := 0, printed := usage }
  | .ok (some a) => respond env files a

/-- The file tree behind an answer. -/
def Response.store (r : Response) (root : Entry) : Except Failure Entry :=
  match r.written? with
  | none => .ok root
  | some (path, octets) => (root.write path octets).mapError (.access path)

end SnippetAudit.CommandLine
