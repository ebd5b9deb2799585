import SnippetAudit.Data.Order
import SnippetAudit.Regex.Matcher
import SnippetAudit.Regex.Reader
import SnippetAudit.Schema.Failure
import SnippetAudit.Schema.Reference

/-!
# The scope of a keyword

A keyword of a schema is judged in a scope: the whole document that references lead into, the schema the
keyword stands in, and the way to judge parts by subschemas.

Some keywords ask only whether a value meets a subschema. The first failure answers that. So a breakdown is come upon
where it is the first, and not where it stands behind a failure. Other keywords ask for all failures under a subschema,
and then every breakdown is come upon.

## What this module delivers

- `Manner`: how documents are judged by;
- `Scope`: the scope of a keyword, with `accepts`, `allFailures` and `judgePart`;
- `settle`: the failures of a keyword that asks subschemas first;
- `Keyword`: how a keyword judges a value;
- `isFound`: a search for an expression given by its text.
-/

set_option autoImplicit false

namespace SnippetAudit.Schema

/-- How documents are judged by. -/
structure Manner where
  /-- Formats are judged and not only noted. -/
  judgesFormats : Bool
  /-- Why a value that a reference leads to is no schema, if it is none. -/
  refusal? : Value → Option String

/-- The scope of a keyword. -/
structure Scope where
  /-- The document that references lead into. -/
  root : Value
  /-- The members of the schema that the keyword stands in. -/
  siblings : Members Value
  manner : Manner
  /-- How many references and subschemas may be followed. -/
  budget : Nat
  /-- The failures of a value under a subschema. -/
  judge : Value → Value → List Failure

/-- A value meets a subschema, or why that cannot be told. The first failure decides. -/
def Scope.accepts (scope : Scope) (schema v : Value) : Except Breakdown Bool :=
  match scope.judge schema v with
  | [] => .ok true
  | f :: _ =>
    match f.breakdown? with
    | some cause => .error cause
    | none => .ok false

/-- All failures of a value under a subschema, or why they cannot be told. -/
def Scope.allFailures (scope : Scope) (schema v : Value) : Except Breakdown (List Failure) :=
  match firstBreakdown? (scope.judge schema v) with
  | some cause => .error cause
  | none => .ok (scope.judge schema v)

/-- The failures that have been found out, or the breakdown that came in between. -/
def settle : Except Breakdown (List Failure) → List Failure
  | .ok fs => fs
  | .error cause => [.broken cause]

/-- The failures of a part, seen from the value it is a part of. A part that must not be there at all is
a failure of the value itself. -/
def Scope.judgePart (scope : Scope) (step : PathStep) (schema part : Value) : List Failure :=
  match schema with
  | .bool _ => scope.judge schema part
  | _ => (scope.judge schema part).map (.under step)

/-- How a keyword with its argument judges a value. -/
abbrev Keyword := Scope → Value → Value → List Failure

/-- The expression with the given text matches somewhere in a string. A text that is no expression matches nowhere; a
document that has been checked holds no such text, and what is joined from several is read before it is searched for. -/
def isFound (pattern s : String) : Bool :=
  match Regex.read? pattern.toList with
  | some r => r.isFoundIn s.toList
  | none => false

/-- How a message shows a value. -/
abbrev shown (v : Value) : String := v.text

/-- The members of an object argument; other arguments have none. -/
def membersOf (v : Value) : Members Value := v.members?.getD []

/-- The items of a list argument; other arguments have none. -/
def itemsOf (v : Value) : List Value := v.items?.getD []

end SnippetAudit.Schema
