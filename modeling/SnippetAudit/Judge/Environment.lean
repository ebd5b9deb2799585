import SnippetAudit.Syntax.Grammar
import SnippetAudit.Syntax.Node

/-!
# What judging depends on

Judging a script needs a parser, and each of its steps may break down on some text for reasons of its own.
Both are given from outside.

## What this module delivers

- `Stage`: the steps that may break down;
- `Breakdowns`: the message with which a step breaks down on a text, if it does;
- `Environment`: the parser and the breakdowns;
- `Environment.attempt`: a step that breaks down or gives its result.
-/

set_option autoImplicit false

namespace SnippetAudit.Judge

open Syntax

/-- A step of judging that may break down. -/
inductive Stage where
  -- the judges themselves, as a batch calls them
  | javascriptJudge
  | typescriptJudge
  | rustJudge
  | operationJudge
  | markupJudge
  -- getting at the code of a snippet
  | scriptExtraction
  | rustExtraction
  | payloadExtraction
  | markupExtraction
  -- parsing that code
  | parse
  | operationParse
  | markupParse
  deriving Repr, DecidableEq

/-- The message with which a step breaks down on a text, if it does. -/
abbrev Breakdowns := Stage → Text → Option String

/-- Nothing ever breaks down. -/
def Breakdowns.never : Breakdowns := fun _ _ => none

/-- What judging depends on. -/
structure Environment where
  /-- The syntax tree of a source; parsing never fails. -/
  parse : Grammar → Text → Node
  breakdown : Breakdowns := .never

/-- The result of a step, unless it breaks down on the text. -/
def Environment.attempt {α : Type} (env : Environment) (stage : Stage) (t : Text) (result : α) :
    Except String α :=
  match env.breakdown stage t with
  | some message => .error message
  | none => .ok result

end SnippetAudit.Judge
