import SnippetAudit.Batch
import SnippetAudit.Data.Value

/-!
# Batches as documents

A batch can be handed on as a data document: whether it is valid, and each outcome with its verdict and
explanation.

## What this module delivers

- `Outcome.document`, `Batch.document`.
-/

set_option autoImplicit false

namespace SnippetAudit

/-- The document of an outcome. -/
def Outcome.document (o : Outcome) : Value :=
  .object [("result", .str o.verdict.name), ("resultDetail", .str o.detail)]

/-- The document of a batch. -/
def Batch.document (b : Batch) : Value :=
  .object [("valid", .bool b.valid), ("detailedChecks", .list (b.outcomes.map Outcome.document))]

end SnippetAudit
