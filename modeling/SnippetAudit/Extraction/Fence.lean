import SnippetAudit.Text.Word
import SnippetAudit.Text.Erase

/-!
# Removing the fence around a snippet

A snippet may stand in a fence: three backticks, then either a language tag that fills the rest of the
line or nothing, and three backticks again at the end. What follows the opening backticks on the same
line is code when it is more than a tag.

## What this module delivers

- `fence`: three backticks;
- `isTagChar`: the characters of a language tag;
- `dropOpeningFence`, `dropClosingFence`, `stripFences`.
-/

set_option autoImplicit false

namespace SnippetAudit.Extraction

open Text

/-- Three backticks. -/
def fence : Text := ['\x60', '\x60', '\x60']

/-- The characters of a language tag. -/
def isTagChar (c : Char) : Bool :=
  isWord c || c == '+' || c == '#' || c == '.' || c == '-'

/-- The text without one line feed at its start, if it starts with one or is empty. -/
def lineEnd? : Text → Option Text
  | [] => some []
  | c :: rest => if c = '\n' then some rest else none

/-- What remains behind opening backticks: without the tag line if there is one, else without spaces
and tabs and a line end. -/
def dropTagLine (t : Text) : Text :=
  let behindTag := (t.dropWhile isTagChar).dropWhile isSpaceTab
  let behindBlanks := t.dropWhile isSpaceTab
  let tagged := if (t.takeWhile isTagChar).isEmpty then none else lineEnd? behindTag
  tagged.getD ((lineEnd? behindBlanks).getD behindBlanks)

/-- The text without an opening fence. -/
def dropOpeningFence (t : Text) : Text :=
  if fence.isPrefixOf t then dropTagLine (t.drop fence.length) else t

/-- The text without a closing fence: three backticks with only spaces and tabs behind them, and one
line feed before them. -/
def dropClosingFence (t : Text) : Text :=
  match t.reverse.dropWhile isSpaceTab with
  | '\x60' :: '\x60' :: '\x60' :: before =>
    match before with
    | '\n' :: code => code.reverse
    | code => code.reverse
  | _ => t

/-- The text without an opening and a closing fence. -/
def stripFences (t : Text) : Text := dropClosingFence (dropOpeningFence t)

end SnippetAudit.Extraction
