import Mathlib.Data.List.DropRight
import SnippetAudit.Text.Basic

/-!
# Trimming

Trimming cuts blanks off at both ends and leaves what is between them.

## What this module delivers

- `exists_trimStart`, `exists_trimEnd`: what is cut off are blanks;
- `trim_isInfix`: what is left is one piece of the text;
- `trim_append`, `trim_trim`: further blanks at the end make no difference, nor does trimming again.
-/

set_option autoImplicit false

namespace SnippetAudit.Text

theorem exists_trimEnd (t : Text) : ∃ w, t = trimEnd t ++ w ∧ ∀ c ∈ w, isBlank c = true := by
  refine ⟨(t.reverse.takeWhile isBlank).reverse, ?_, fun c hc => ?_⟩
  · rw [trimEnd, dropEndWhile, ← List.reverse_append, List.takeWhile_append_dropWhile, List.reverse_reverse]
  · exact List.mem_takeWhile_imp (List.mem_reverse.1 hc)

theorem exists_trimStart (t : Text) : ∃ w, t = w ++ trimStart t ∧ ∀ c ∈ w, isBlank c = true :=
  ⟨t.takeWhile isBlank, List.takeWhile_append_dropWhile.symm, fun _ hc => List.mem_takeWhile_imp hc⟩

theorem trim_isInfix (t : Text) : trim t <:+: t := by
  obtain ⟨w, hw, -⟩ := exists_trimStart t
  obtain ⟨w', hw', -⟩ := exists_trimEnd (trimStart t)
  exact ⟨w, w', by rw [List.append_assoc, trim, ← hw', ← hw]⟩

theorem trimEnd_append {w : Text} (hw : ∀ c ∈ w, isBlank c = true) (t : Text) :
    trimEnd (t ++ w) = trimEnd t := by
  rw [trimEnd, dropEndWhile, List.reverse_append,
    List.dropWhile_append_of_pos fun c hc => hw c (List.mem_reverse.1 hc)]
  rfl

/-- Further blanks at the end make no difference. -/
theorem trim_append {w : Text} (hw : ∀ c ∈ w, isBlank c = true) (t : Text) : trim (t ++ w) = trim t := by
  rw [trim, trim, trimStart, trimStart, List.dropWhile_append]
  split
  · next hblank => rw [List.isEmpty_iff.1 hblank, List.dropWhile_eq_nil_iff.2 hw]
  · exact trimEnd_append hw _

/-- A text that is trimmed stays as it is. -/
theorem trim_trim (t : Text) : trim (trim t) = trim t := by
  obtain ⟨w, hw, hblank⟩ := exists_trimEnd (trimStart t)
  calc trim (trim t)
      = trim (trim t ++ w) := (trim_append hblank (trim t)).symm
    _ = trim (trimStart t) := congrArg trim hw.symm
    _ = trim t := congrArg trimEnd (List.dropWhile_idempotent isBlank t)

end SnippetAudit.Text
