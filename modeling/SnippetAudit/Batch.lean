import SnippetAudit.Outcome

/-!
# Batches

A batch is the list of outcomes of several snippets judged together. It is valid when there is at least
one outcome and every one is a success: a batch in which nothing was judged is not valid.

## What this module delivers

- `Batch`, `Batch.ofOutcomes`;
- `Batch.report`: the batch as a markdown report with one numbered section for each outcome.
-/

set_option autoImplicit false

namespace SnippetAudit

/-- The outcomes of several snippets and whether all of them passed. -/
structure Batch where
  valid : Bool
  outcomes : List Outcome
  deriving Repr, DecidableEq

namespace Batch

/-- The batch of some outcomes. -/
def ofOutcomes (outcomes : List Outcome) : Batch :=
  ⟨!outcomes.isEmpty && outcomes.all (fun o => o.verdict == .success), outcomes⟩

/-- The sign shown with a verdict. -/
def glyph : Verdict → String
  | .success => "✅"
  | .failed => "❌"
  | .skipped => "⏭️"

/-- The section of one outcome. -/
def outcomeSection (number : Nat) (o : Outcome) : String :=
  "### Validation " ++ toString number ++ "\n" ++
    "**Status:** " ++ glyph o.verdict ++ " " ++ o.verdict.label ++ "\n" ++
    "**Details:** " ++ o.detail ++ "\n"

/-- The sections of outcomes, numbered from `first`. -/
def sections (first : Nat) : List Outcome → List String
  | [] => []
  | o :: rest => outcomeSection first o :: sections (first + 1) rest

/-- The report of a batch: a heading and a section for each outcome, an empty line before each. -/
def report (batch : Batch) : String :=
  "\n".intercalate ("## Detailed Results\n" :: sections 1 batch.outcomes)

end Batch

end SnippetAudit
