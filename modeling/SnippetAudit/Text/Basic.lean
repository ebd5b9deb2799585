/-!
# Text

A text is a list of characters. Blank characters are the white space of every script; a space or a
tab is the only blank that may stand inside a fence line or an empty line.

## What this module delivers

- `Text`: lists of characters;
- `isBlank`, `isSpaceTab`: the two classes of white space;
- `trim`, `trimStart`, `trimEnd`: a text without its outer blanks;
- `unixNewlines`: every carriage return with its line feed made a line feed;
- `splitOnBlanks`: the blank-separated pieces of a text.
-/

set_option autoImplicit false

namespace SnippetAudit

/-- A text, as the list of its characters. -/
abbrev Text := List Char

namespace Text

/-- The blank characters: white space of every script and the four separators U+001C to U+001F. -/
def isBlank (c : Char) : Bool :=
  let n := c.toNat
  (9 ≤ n && n ≤ 13) || (28 ≤ n && n ≤ 32) || n == 0x85 || n == 0xA0 || n == 0x1680 ||
    (0x2000 ≤ n && n ≤ 0x200A) || n == 0x2028 || n == 0x2029 || n == 0x202F || n == 0x205F ||
    n == 0x3000

/-- A space or a tab. -/
def isSpaceTab (c : Char) : Bool :=
  c == ' ' || c == '\t'

/-- The text without the characters of a class at its end. -/
def dropEndWhile (p : Char → Bool) (t : Text) : Text :=
  (t.reverse.dropWhile p).reverse

/-- The text without its leading blanks. -/
def trimStart (t : Text) : Text := t.dropWhile isBlank

/-- The text without its trailing blanks. -/
def trimEnd (t : Text) : Text := dropEndWhile isBlank t

/-- The text without its leading and trailing blanks. -/
def trim (t : Text) : Text := trimEnd (trimStart t)

/-- Every carriage return that a line feed follows is dropped; a lone carriage return stays. -/
def unixNewlines : Text → Text
  | [] => []
  | '\r' :: '\n' :: rest => '\n' :: unixNewlines rest
  | c :: rest => c :: unixNewlines rest

/-- Every carriage return, alone or with its line feed, becomes one line feed. -/
def universalNewlines : Text → Text
  | [] => []
  | '\r' :: '\n' :: rest => '\n' :: universalNewlines rest
  | '\r' :: rest => '\n' :: universalNewlines rest
  | c :: rest => c :: universalNewlines rest

/-- The maximal pieces of a text that hold no blank; `piece` is the piece being read, reversed. -/
def splitOnBlanksFrom (piece : Text) : Text → List Text
  | [] => if piece.isEmpty then [] else [piece.reverse]
  | c :: rest =>
    if isBlank c then
      if piece.isEmpty then splitOnBlanksFrom [] rest
      else piece.reverse :: splitOnBlanksFrom [] rest
    else splitOnBlanksFrom (c :: piece) rest

/-- The maximal pieces of a text that hold no blank. -/
def splitOnBlanks (t : Text) : List Text := splitOnBlanksFrom [] t

/-- The text after its first occurrence of `mark`, if it has one. -/
def afterFirst? (mark : Text) : Text → Option Text
  | [] => if mark.isEmpty then some [] else none
  | c :: rest =>
    if mark.isPrefixOf (c :: rest) then some ((c :: rest).drop mark.length)
    else afterFirst? mark rest

/-- The length of a text up to the end of its first occurrence of `mark`, if it has one. -/
def lengthThrough? (mark : Text) : Text → Option Nat
  | [] => if mark.isEmpty then some 0 else none
  | c :: rest =>
    if mark.isPrefixOf (c :: rest) then some mark.length
    else (lengthThrough? mark rest).map (· + 1)

theorem dropEndWhile_sublist (p : Char → Bool) (t : Text) : (dropEndWhile p t).Sublist t := by
  have h : (t.reverse.dropWhile p).reverse.Sublist t.reverse.reverse :=
    List.reverse_sublist.2 (List.dropWhile_sublist p)
  simpa [dropEndWhile] using h

theorem trim_sublist (t : Text) : (trim t).Sublist t :=
  (dropEndWhile_sublist isBlank _).trans (List.dropWhile_sublist isBlank)

theorem isBlank_of_isSpaceTab {c : Char} (h : isSpaceTab c = true) : isBlank c = true := by
  simp only [isSpaceTab, Bool.or_eq_true, beq_iff_eq] at h
  rcases h with rfl | rfl <;> decide

end Text

end SnippetAudit
