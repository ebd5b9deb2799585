import SnippetAudit.Text.Basic

/-!
# Character ranges

A large character class is a list of code point ranges, both ends included, in increasing order.

## What this module delivers

- `inRanges`: membership of a code point in such a list.
-/

set_option autoImplicit false

namespace SnippetAudit.Text

/-- The code point lies in one of the ranges. -/
def inRanges (table : List (Nat × Nat)) (n : Nat) : Bool :=
  table.any fun range => range.1 ≤ n && n ≤ range.2

end SnippetAudit.Text
