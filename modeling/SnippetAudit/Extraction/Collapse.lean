import SnippetAudit.Text.Lines

/-!
# Collapsing blank lines

Removing comments leaves lines with nothing on them. Collapsing clears every line of spaces and tabs,
limits each run of line feeds, and drops one line feed at either end.

## What this module delivers

- `clearBlankLines`, `capLineFeeds`, `dropOuterLineFeeds`: the three steps;
- `collapse`: all of them;
- `collapse_sublist`: collapsing only deletes.
-/

set_option autoImplicit false

namespace SnippetAudit.Extraction

open Text

/-- A line of spaces and tabs becomes empty. -/
def clearLine (line : Text) : Text :=
  if line.all isSpaceTab then [] else line

/-- Every line of spaces and tabs becomes empty. -/
def clearBlankLines (t : Text) : Text := mapLines clearLine t

/-- Drops line feeds beyond `limit` in a run, of which `seen` have been kept already. -/
def capLineFeedsFrom (limit : Nat) : Nat → Text → Text
  | _, [] => []
  | seen, c :: rest =>
    if c = '\n' then
      if seen < limit then c :: capLineFeedsFrom limit (seen + 1) rest
      else capLineFeedsFrom limit seen rest
    else c :: capLineFeedsFrom limit 0 rest

/-- Every run of line feeds is cut to at most `limit` of them. -/
def capLineFeeds (limit : Nat) (t : Text) : Text := capLineFeedsFrom limit 0 t

/-- The text without one line feed at its start. -/
def dropFirstLineFeed : Text → Text
  | '\n' :: rest => rest
  | t => t

/-- The text without one line feed at its end. -/
def dropLastLineFeed (t : Text) : Text := (dropFirstLineFeed t.reverse).reverse

/-- The text without one line feed at its start and one at its end. -/
def dropOuterLineFeeds (t : Text) : Text := dropLastLineFeed (dropFirstLineFeed t)

/-- Clears lines of spaces and tabs, leaves at most `maxBlank` empty lines between two others, and
drops one line feed at either end. -/
def collapse (maxBlank : Nat) (t : Text) : Text :=
  dropOuterLineFeeds (capLineFeeds (maxBlank + 1) (clearBlankLines t))

theorem clearLine_sublist (line : Text) : (clearLine line).Sublist line := by
  unfold clearLine
  split
  · exact List.nil_sublist line
  · exact List.Sublist.refl line

theorem capLineFeedsFrom_sublist (limit : Nat) (t : Text) :
    ∀ seen, (capLineFeedsFrom limit seen t).Sublist t := by
  induction t with
  | nil => intro seen; exact List.Sublist.slnil
  | cons c rest ih =>
    intro seen
    unfold capLineFeedsFrom
    split
    · split
      · exact (ih (seen + 1)).cons_cons c
      · exact (ih seen).cons c
    · exact (ih 0).cons_cons c

theorem dropFirstLineFeed_suffix (t : Text) : dropFirstLineFeed t <:+ t := by
  unfold dropFirstLineFeed
  split
  · exact List.suffix_cons _ _
  · exact List.suffix_refl t

theorem dropLastLineFeed_isPrefix (t : Text) : dropLastLineFeed t <+: t := by
  have h := dropFirstLineFeed_suffix t.reverse
  rw [← List.reverse_prefix, List.reverse_reverse] at h
  exact h

/-- Collapsing only deletes. -/
theorem collapse_sublist (maxBlank : Nat) (t : Text) : (collapse maxBlank t).Sublist t := by
  have hclear : (clearBlankLines t).Sublist t := mapLines_sublist clearLine_sublist t
  have hcap := capLineFeedsFrom_sublist (maxBlank + 1) (clearBlankLines t) 0
  have hfirst := (dropFirstLineFeed_suffix (capLineFeeds (maxBlank + 1) (clearBlankLines t))).sublist
  exact (dropLastLineFeed_isPrefix _).sublist.trans (hfirst.trans (hcap.trans hclear))

end SnippetAudit.Extraction
