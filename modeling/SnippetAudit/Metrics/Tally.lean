import SnippetAudit.Data.Sorted
import SnippetAudit.Metrics.Event

/-!
# Tallies

A tally is read off the events so far: how often each came, in the order of metrics and labels.

## What this module delivers

- `Sample`, `tally`: each event with its number.
-/

set_option autoImplicit false

namespace SnippetAudit.Metrics

/-- An event with the number of times it came. -/
structure Sample where
  event : Event
  count : Nat
  deriving DecidableEq, Repr

/-- What events are ordered by: the metric, then the labels. -/
def orderKey (e : Event) : List String :=
  e.metric :: e.labels.flatMap fun (name, value) => [name, value]

/-- An event comes before another one. -/
def comesBefore (a b : Event) : Bool := Sorted.textBefore (orderKey a) (orderKey b)

/-- The number of times each event came, in the order of metrics and labels. -/
def tally (events : List Event) : List Sample :=
  (Sorted.sortBy comesBefore events.eraseDups).map fun e => ⟨e, events.count e⟩

end SnippetAudit.Metrics
