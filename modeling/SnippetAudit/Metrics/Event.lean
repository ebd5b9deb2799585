import SnippetAudit.Outcome

/-!
# Counted events

Judging is counted: every outcome of a batch by kind and verdict, every component without a contract by the
package that was asked, and every snippet whose judging was timed by kind.

## What this module delivers

- `Event`: what is counted;
- `Event.metric`, `Event.labels`: the metric that an event belongs to, and what tells it from others there.
-/

set_option autoImplicit false

namespace SnippetAudit.Metrics

/-- What is counted. -/
inductive Event where
  /-- An outcome of a batch. -/
  | outcome (kind verdict : String)
  /-- A component for which a package has no contract. -/
  | unknownComponent (package : String)
  /-- A snippet whose judging was timed. -/
  | timed (kind : String)
  deriving DecidableEq, Repr

namespace Event

/-- The metric of an event. -/
def metric : Event → String
  | .outcome _ _ => "codecheck_validation_outcomes_total"
  | .unknownComponent _ => "codecheck_unknown_components_total"
  | .timed _ => "codecheck_validation_seconds_count"

/-- The labels of an event in the order of their names. -/
def labels : Event → List (String × String)
  | .outcome kind verdict => [("kind", kind), ("verdict", verdict)]
  | .unknownComponent package => [("package", package)]
  | .timed kind => [("kind", kind)]

/-- The event of an outcome for snippets of a kind. -/
def ofOutcome (kind : String) (o : Outcome) : Event := .outcome kind o.verdict.name

end Event

end SnippetAudit.Metrics
