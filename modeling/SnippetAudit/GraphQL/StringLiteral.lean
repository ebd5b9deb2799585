import SnippetAudit.Text.Lines
import SnippetAudit.Text.Quoted

/-!
# String literals

A string is written between double quotes with escapes, or as a block between triple quotes. A block is
written over several lines, and the indentation that its lines have in common is not part of its value.

## What this module delivers

- `blockValue`: the value of a block from its lines;
- `quoted`: a value as a string between double quotes;
- `block`: a value as a block.
-/

set_option autoImplicit false

namespace SnippetAudit.GraphQL.StringLiteral

/-! ## Reading blocks -/

/-- A character of indentation. -/
def isIndent (c : Char) : Bool := c == ' ' || c == '\t'

/-- The number of indenting characters at the start of a line. -/
def indentation (line : Text) : Nat := (line.takeWhile isIndent).length

/-- The line holds nothing but indentation. -/
def isEmptyLine (line : Text) : Bool := line.all isIndent

/-- The smallest indentation of lines that are not empty. -/
def commonIndentation (lines : List Text) : Nat :=
  (((lines.filter fun line => !isEmptyLine line).map indentation).min?).getD 0

/-- The value of a block from its lines: without the indentation that all lines but the first have in
common, and without empty lines at either end. -/
def blockValue (lines : List Text) : Text :=
  match lines with
  | [] => []
  | first :: rest =>
    -- the first line starts behind the quotes, so its indentation tells nothing
    let common := commonIndentation rest
    let kept := (first :: rest.map (List.drop common)).dropWhile isEmptyLine
    Text.unlines ((kept.reverse.dropWhile isEmptyLine).reverse)

/-! ## Writing -/

/-- A character as it stands in a string. -/
def escapeChar (c : Char) : Text :=
  if c = '"' ∨ c = '\\' then ['\\', c]
  else if c = '\n' then ['\\', 'n']
  else if c = '\t' then ['\\', 't']
  else if c = '\r' then ['\\', 'r']
  else if c = '\x08' then ['\\', 'b']
  else if c = '\x0c' then ['\\', 'f']
  else if c.toNat < 0x20 ∨ (0x7F ≤ c.toNat ∧ c.toNat < 0xA0) then
    '\\' :: 'u' :: Text.upperHexDigits 4 c.toNat
  else [c]

/-- A value as a string between double quotes. -/
def quoted (value : Text) : Text := '"' :: value.flatMap escapeChar ++ ['"']

/-- A value with its triple quotes escaped. -/
def escapeTripleQuotes : Text → Text
  | '"' :: '"' :: '"' :: rest => '\\' :: '"' :: '"' :: '"' :: escapeTripleQuotes rest
  | c :: rest => c :: escapeTripleQuotes rest
  | [] => []

/-- The lines of a value; a line ends at a line feed, at a carriage return, or at both together. -/
def lineParts (value : Text) : List Text :=
  let unified := (Text.unixNewlines value).map fun c => if c = '\r' then '\n' else c
  Text.lines unified

/-- The line is empty or starts with indentation. -/
def startsIndented (line : Text) : Bool := line.head?.all isIndent

/-- A value as a block. Line feeds are added inside the quotes where the value has several lines or
many characters, or where its ends could be taken for part of the quotes. -/
def block (value : Text) : Text :=
  let escaped := escapeTripleQuotes value
  let lines := lineParts escaped
  let singleLine := lines.length == 1
  let leading := !singleLine && (lines.drop 1).all startsIndented
  -- a value that ends with escaped quotes would run into the closing ones, and so would a quote or a backslash
  let endsTriple := "\\\"\"\"".toList.isSuffixOf escaped
  let endsQuote := value.getLast? == some '"' && !endsTriple
  let trailing := endsQuote || value.getLast? == some '\\'
  let spread := !singleLine || decide (value.length > 70) || trailing || leading || endsTriple
  let skipsLeading := singleLine && value.head?.any isIndent
  let quotes := "\"\"\"".toList
  quotes ++ (if (spread && !skipsLeading) || leading then ['\n'] else []) ++ escaped ++
    (if spread || trailing then ['\n'] else []) ++ quotes

end SnippetAudit.GraphQL.StringLiteral
