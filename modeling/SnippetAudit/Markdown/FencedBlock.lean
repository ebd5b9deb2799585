import SnippetAudit.Extraction.Fence
import SnippetAudit.Text.Lines
import SnippetAudit.Text.Lower

/-!
# Fenced blocks in markdown

A fenced block opens with a line of three backticks, after spaces and tabs at most, and ends with the
next line that holds nothing but three backticks. The word behind the opening backticks is its language;
the rest of that line is ignored. An opening line that no closing line follows opens nothing.

## What this module delivers

- `FencedBlock`: a language and a body;
- `openingTag?`, `isClosing`: the lines that open and close a block;
- `fencedBlocks`: all blocks of a text in order;
- `FencedBlock.wanted`, `findFencedBlocks`: the blocks of some languages.
-/

set_option autoImplicit false

namespace SnippetAudit.Markdown

open Text Extraction

/-- A fenced block: its language in lower case and its text without trailing line feeds. -/
structure FencedBlock where
  language : Text
  body : Text
  deriving Repr, DecidableEq

/-- The language named by a line that opens a block. -/
def openingTag? (line : Text) : Option Text :=
  let rest := line.dropWhile isSpaceTab
  if fence.isPrefixOf rest then
    some (((rest.drop fence.length).dropWhile isSpaceTab).takeWhile isTagChar)
  else none

/-- The line closes a block. -/
def isClosing (line : Text) : Bool :=
  let rest := line.dropWhile isSpaceTab
  fence.isPrefixOf rest && (rest.drop fence.length).all isSpaceTab

/-- The block with a tag and the lines between its fences. -/
def FencedBlock.ofLines (tag : Text) (body : List Text) : FencedBlock :=
  ⟨lower tag, dropEndWhile (· == '\n') (unlines body)⟩

/-- Reads blocks line by line; `opened` holds the tag and the lines, the last one first, of a block
that has been opened. -/
def readBlocks : Option (Text × List Text) → List Text → List FencedBlock
  | _, [] => []
  -- lines outside of blocks are passed over until one opens a block
  | none, line :: rest => readBlocks ((openingTag? line).map fun tag => (tag, [])) rest
  | some (tag, body), line :: rest =>
    if isClosing line then FencedBlock.ofLines tag body.reverse :: readBlocks none rest
    else readBlocks (some (tag, line :: body)) rest

/-- All fenced blocks of a text, in order. -/
def fencedBlocks (t : Text) : List FencedBlock := readBlocks none (lines (unixNewlines t))

/-- A block is wanted when no languages are asked for, when its language is one of them, or when it
has none and such blocks are asked for too. -/
def FencedBlock.wanted (languages : Option (List Text)) (untagged : Bool) (b : FencedBlock) : Bool :=
  match languages with
  | none => true
  | some ls => (ls.map lower).contains b.language || (untagged && b.language.isEmpty)

/-- The fenced blocks of some languages, in order. -/
def findFencedBlocks (languages : Option (List Text)) (untagged : Bool) (t : Text) :
    List FencedBlock :=
  (fencedBlocks t).filter (·.wanted languages untagged)

end SnippetAudit.Markdown
