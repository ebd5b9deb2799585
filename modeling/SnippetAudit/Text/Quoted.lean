import SnippetAudit.Text.Printable

/-!
# Quoted text

Messages show a text between quotes. The quote is the single one, unless the text holds single quotes
and no double quote. Inside, the backslash and the chosen quote are escaped by a backslash, line feed,
carriage return and tab have letters, and every other unprintable character is shown by its number.

## What this module delivers

- `hexDigits`: a number in lower-case hexadecimal, filled up with zeros;
- `quote`: a text in quotes.
-/

set_option autoImplicit false

namespace SnippetAudit.Text

/-- The lower-case hexadecimal digits of a number, filled up to `width` digits. -/
def hexDigits (width n : Nat) : Text :=
  let digits := Nat.toDigits 16 n
  List.replicate (width - digits.length) '0' ++ digits

/-- The upper-case hexadecimal digits of a number, filled up to `width` digits. -/
def upperHexDigits (width n : Nat) : Text :=
  (hexDigits width n).map Char.toUpper

/-- The quote around a text: double only where the text holds single quotes and no double one. -/
def quoteMark (t : Text) : Char :=
  if t.contains '\'' && !t.contains '"' then '"' else '\''

/-- One character as it stands between quotes of the kind `mark`. -/
def escapeChar (mark c : Char) : Text :=
  if c = mark ∨ c = '\\' then ['\\', c]
  else if c = '\n' then ['\\', 'n']
  else if c = '\r' then ['\\', 'r']
  else if c = '\t' then ['\\', 't']
  else if isPrintable c then [c]
  else if c.toNat < 0x100 then '\\' :: 'x' :: hexDigits 2 c.toNat
  else if c.toNat < 0x10000 then '\\' :: 'u' :: hexDigits 4 c.toNat
  else '\\' :: 'U' :: hexDigits 8 c.toNat

/-- A text in quotes. -/
def quote (t : Text) : Text :=
  let mark := quoteMark t
  mark :: t.flatMap (escapeChar mark) ++ [mark]

/-- A string in quotes. -/
def quoteString (s : String) : String := String.ofList (quote s.toList)

end SnippetAudit.Text
