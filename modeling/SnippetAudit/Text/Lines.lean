import SnippetAudit.Text.Basic

/-!
# Lines

A text is a non-empty list of lines with a line feed between each two. No other character ends a
line.

## What this module delivers

- `lines` and `unlines`: a text taken apart and put together again, with `unlines_lines`;
- `mapLines`: a change made to every line on its own, with `mapLines_sublist`.
-/

set_option autoImplicit false

namespace SnippetAudit.Text

/-- The lines of a text; a text without line feed is its only line. -/
def lines : Text → List Text
  | [] => [[]]
  | c :: rest =>
    if c = '\n' then [] :: lines rest
    else
      match lines rest with
      | [] => [[c]]
      | line :: more => (c :: line) :: more

/-- The text of a list of lines, with a line feed between each two. -/
def unlines : List Text → Text
  | [] => []
  | [line] => line
  | line :: next :: more => line ++ '\n' :: unlines (next :: more)

/-- The text with every line changed by `f`. -/
def mapLines (f : Text → Text) (t : Text) : Text :=
  unlines ((lines t).map f)

theorem lines_ne_nil (t : Text) : lines t ≠ [] := by
  cases t with
  | nil => simp [lines]
  | cons c rest =>
    unfold lines
    split
    · simp
    · split <;> simp

/-- Putting the lines of a text together gives the text. -/
theorem unlines_lines (t : Text) : unlines (lines t) = t := by
  induction t with
  | nil => rfl
  | cons c rest ih =>
    unfold lines
    split
    next h =>
      subst h
      cases hl : lines rest with
      | nil => exact absurd hl (lines_ne_nil rest)
      | cons line more => rw [hl] at ih; simp [unlines, ih]
    next h =>
      cases hl : lines rest with
      | nil => exact absurd hl (lines_ne_nil rest)
      | cons line more =>
        rw [hl] at ih
        cases more with
        | nil => simpa [unlines] using ih
        | cons next more => simpa [unlines] using ih

theorem unlines_map_sublist {f : Text → Text} (hf : ∀ line, (f line).Sublist line) :
    ∀ ls : List Text, (unlines (ls.map f)).Sublist (unlines ls)
  | [] => List.Sublist.slnil
  | [line] => hf line
  | line :: next :: more => by
    have ih := unlines_map_sublist hf (next :: more)
    exact (hf line).append (ih.cons_cons '\n')

/-- A change that only deletes in every line only deletes in the text. -/
theorem mapLines_sublist {f : Text → Text} (hf : ∀ line, (f line).Sublist line) (t : Text) :
    (mapLines f t).Sublist t := by
  have h := unlines_map_sublist hf (lines t)
  rw [unlines_lines] at h
  exact h

end SnippetAudit.Text
