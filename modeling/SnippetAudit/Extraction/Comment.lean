import SnippetAudit.Extraction.Collapse
import SnippetAudit.Text.Erase

/-!
# Removing comments

Three kinds of comments: markup comments between their marks, C comments between their marks or from two
slashes to the end of the line, and lines that start with a hash sign. Blank lines are collapsed when
and only when something was removed.

## What this module delivers

- `tidy`: collapsing after a removal that changed the text;
- `stripHtmlComments`, `stripCComments`, `stripHashComments`.
-/

set_option autoImplicit false

namespace SnippetAudit.Extraction

open Text

/-- The cleaned text with its blank lines collapsed, unless cleaning changed nothing. -/
def tidy (maxBlank : Nat) (before cleaned : Text) : Text :=
  if cleaned = before then cleaned else collapse maxBlank cleaned

/-- A markup comment. -/
def htmlComment : Pattern := between "<!--".toList "-->".toList

/-- The text without markup comments. -/
def stripHtmlComments (t : Text) : Text := tidy 1 t (erase htmlComment t)

/-- A C comment between its marks. -/
def blockComment : Pattern := between "/*".toList "*/".toList

/-- A C comment to the end of its line; it starts the line or follows a blank. -/
def lineComment : Pattern := fun before t =>
  if before.all isBlank && "//".toList.isPrefixOf t then (t.takeWhile (· != '\n')).length else 0

/-- The text without C comments, those between marks first. -/
def stripCComments (t : Text) : Text := tidy 1 t (erase lineComment (erase blockComment t))

/-- A line whose first character other than spaces and tabs is a hash sign. -/
def isHashComment (line : Text) : Bool := (line.dropWhile isSpaceTab).head? == some '#'

/-- A comment line becomes empty. -/
def clearComment (line : Text) : Text := if isHashComment line then [] else line

/-- The text without lines that start with a hash sign. -/
def stripHashComments (t : Text) : Text := tidy 0 t (mapLines clearComment t)

end SnippetAudit.Extraction
