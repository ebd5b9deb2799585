import SnippetAudit.Extraction.Extract
import SnippetAudit.Judge.Environment
import SnippetAudit.Judge.Request
import SnippetAudit.Outcome
import SnippetAudit.Syntax.Problem

/-!
# Judging scripts and Rust code

A snippet is taken out of its fence and parsed; it passes when its syntax tree holds no damage.

## What this module delivers

- `judgeSyntax`: the outcome of a source under a grammar;
- `judgeSource`: the outcome of a submitted snippet under a grammar;
- `judgeScript`: likewise, for a grammar given by name, which must be one for scripts;
- `judgeRust`.
-/

set_option autoImplicit false

namespace SnippetAudit.Judge

open Syntax

/-- The outcome of a tree and its source. -/
def judgeTree (label : String) (source : Text) (root : Node) : Outcome :=
  match findProblems (Text.encode source) root with
  | [] => .success (label ++ " code has valid syntax")
  | problems => .failed (label ++ " syntax errors: " ++ "; ".intercalate (problems.map Problem.text))

/-- The outcome of a source that could not be parsed. -/
def parseFailure (label message : String) : Outcome :=
  .failed ("Failed to parse " ++ label ++ ": " ++ message)

/-- The outcome of a source under a grammar. -/
def judgeSyntax (env : Environment) (g : Grammar) (label : String) (source : Text) : Outcome :=
  match env.attempt .parse source (env.parse g source) with
  | .ok root => judgeTree label source root
  | .error message => parseFailure label message

/-- The outcome of a source under a grammar given by name. -/
def judgeSyntaxNamed (env : Environment) (name label : String) (source : Text) : Outcome :=
  match Grammar.ofName name with
  | .ok g => judgeSyntax env g label source
  | .error e => parseFailure label e.message

/-- The outcome of a submitted snippet under a grammar; `stage` is the step that takes the snippet out
of its fence. -/
def judgeSource (env : Environment) (stage : Stage) (g : Grammar) (code : Value) : Outcome :=
  match nonEmptyText "code" code with
  | .error issue => .failed (describeIssues [issue])
  | .ok s =>
    match env.attempt stage s.toList (Extraction.extract Extraction.fenced s.toList) with
    | .error message => .failed ("Validation failed: " ++ message)
    | .ok cleaned =>
      if cleaned.isEmpty then
        .failed ("Invalid input: code: no " ++ g.label ++ " code found after extraction")
      else judgeSyntax env g g.label cleaned

/-- The outcome of a script under a grammar given by name. -/
def judgeScript (env : Environment) (name : String) (code : Value) : Outcome :=
  match Grammar.scripts.find? fun g => g.name == name with
  | some g => judgeSource env .scriptExtraction g code
  | none =>
    .failed ("Unsupported script grammar: " ++ name ++ ". Supported grammars: " ++
      ", ".intercalate (Grammar.scripts.map Grammar.name) ++ ".")

/-- The outcome of a piece of Rust code. -/
def judgeRust (env : Environment) (code : Value) : Outcome :=
  judgeSource env .rustExtraction .rust code

end SnippetAudit.Judge
