import SnippetAudit.GraphQL.StringLiteral
import SnippetAudit.GraphQL.Token
import SnippetAudit.Text.Digit

/-!
# Reading tokens

A token is read from the start of a text: a punctuator, a name, a number, a string or a block. What cannot
be read is explained with the place inside the text at which it went wrong.

## What this module delivers

- `skipIgnored`: the text behind what is ignored between tokens;
- `Lexeme`, `readLexeme`: the token at the start of a text, with its length;
- `tokens`: all tokens of a text.
-/

set_option autoImplicit false

namespace SnippetAudit.GraphQL

/-! ## Ignored text -/

/-- The character ends a line. -/
def endsLine (c : Char) : Bool := c == '\n' || c == '\r'

/-- The character is ignored between tokens. -/
def isIgnored (c : Char) : Bool :=
  c == ' ' || c == '\t' || c == ',' || c == '\uFEFF' || endsLine c

/-- The text behind ignored characters and comments; `comment` tells that the text starts inside a
comment, which goes on to the end of its line. -/
def skipIgnoredFrom (comment : Bool) : Text → Text
  | [] => []
  | c :: rest =>
    if comment then skipIgnoredFrom (!endsLine c) rest
    else if c = '#' then skipIgnoredFrom true rest
    else if isIgnored c then skipIgnoredFrom false rest
    else c :: rest

/-- The text behind what is ignored between tokens. -/
def skipIgnored (t : Text) : Text := skipIgnoredFrom false t

/-! ## Single tokens -/

/-- A token at the start of a text and the number of its characters. -/
structure Lexeme where
  kind : TokenKind
  value : Text := []
  length : Nat
  deriving Repr, DecidableEq

/-- A result, or an error with its place counted from the start of the text. -/
abbrev Lexed (α : Type) := Except SyntaxError α

/-- The character is a digit. -/
def isDigit (c : Char) : Bool := '0' ≤ c && c ≤ '9'

/-- The character may start a name. -/
def isNameStart (c : Char) : Bool := c == '_' || ('a' ≤ c && c ≤ 'z') || ('A' ≤ c && c ≤ 'Z')

/-- The character may stand inside a name. -/
def isNamePart (c : Char) : Bool := isNameStart c || isDigit c

/-- The punctuator of one character. -/
def punctuatorOf? : Char → Option TokenKind
  | '!' => some .bang
  | '$' => some .dollar
  | '&' => some .ampersand
  | '(' => some .openParen
  | ')' => some .closeParen
  | ':' => some .colon
  | '=' => some .equals
  | '@' => some .atSign
  | '[' => some .openBracket
  | ']' => some .closeBracket
  | '\x7b' => some .openBrace
  | '|' => some .pipe
  | '\x7d' => some .closeBrace
  | _ => none

/-- The name at the start of a text. -/
def readName (t : Text) : Lexeme :=
  let name := t.takeWhile isNamePart
  ⟨.name, name, name.length⟩

/-- The number of digits at the start of a text, of which there must be one; `start` is the place of the
text. -/
def digitsLength (start : Nat) (t : Text) : Lexed Nat :=
  match (t.takeWhile isDigit).length with
  | 0 => .error ⟨start, .digitExpected t.head?⟩
  | n => .ok n

/-- The length of the whole part of a number: a zero that no digit follows, or digits. -/
def wholeLength (start : Nat) (t : Text) : Lexed Nat :=
  match t with
  | '0' :: rest =>
    if rest.head?.any isDigit then .error ⟨start + 1, .digitAfterZero rest.head?⟩ else .ok 1
  | _ => digitsLength start t

/-- The length of the fraction at the start of a text: nothing, or a point and digits. -/
def fractionLength (start : Nat) (t : Text) : Lexed Nat :=
  match t with
  | '.' :: rest => (digitsLength (start + 1) rest).map (· + 1)
  | _ => .ok 0

/-- The length of the exponent at the start of a text: nothing, or its letter, a sign if there is one,
and digits. -/
def exponentLength (start : Nat) (t : Text) : Lexed Nat :=
  match t with
  | e :: rest =>
    if e = 'e' ∨ e = 'E' then
      let sign := if rest.head? = some '+' ∨ rest.head? = some '-' then 1 else 0
      (digitsLength (start + 1 + sign) (rest.drop sign)).map (· + 1 + sign)
    else .ok 0
  | [] => .ok 0

/-- The number at the start of a text. No name and no point may follow it. -/
def readNumber (t : Text) : Lexed Lexeme := do
  let sign := if t.head? = some '-' then 1 else 0
  let whole ← wholeLength sign (t.drop sign)
  let wholeEnd := sign + whole
  let fraction ← fractionLength wholeEnd (t.drop wholeEnd)
  let fractionEnd := wholeEnd + fraction
  let exponent ← exponentLength fractionEnd (t.drop fractionEnd)
  let length := fractionEnd + exponent
  let following := (t.drop length).head?
  if following.any fun c => c == '.' || isNameStart c then .error ⟨length, .digitExpected following⟩
  else .ok ⟨if length = wholeEnd then .int else .float, t.take length, length⟩

/-! ## Strings -/

/-- The number is the code point of a character. -/
def isScalar (n : Nat) : Bool := n < 0xD800 || (0xE000 ≤ n && n < 0x110000)

/-- The number that four hexadecimal digits at the start of a text make. -/
def fourHexDigits? (t : Text) : Option Nat :=
  let digits := (t.take 4).filterMap (Text.radixDigit? 16)
  if digits.length = 4 then some (Text.digitsValue 16 digits) else none

/-- The character of an escape by two halves at the start of a text. -/
def surrogatePair? (high : Nat) (t : Text) : Option Char :=
  match t with
  | '\\' :: 'u' :: rest =>
    (fourHexDigits? rest).bind fun low =>
      if 0xD800 ≤ high ∧ high < 0xDC00 ∧ 0xDC00 ≤ low ∧ low < 0xE000 then
        some (Char.ofNat (0x10000 + (high - 0xD800) * 0x400 + (low - 0xDC00)))
      else none
  | _ => none

/-- The character of an escape with a number of four digits, and the length of the escape. -/
def readFixedEscape (t : Text) : Except SyntaxFault (Char × Nat) :=
  match fourHexDigits? (t.drop 2) with
  | none => .error (.invalidUnicodeEscape (String.ofList (t.take 6)))
  | some n =>
    -- half of a pair counts only with the other half behind it
    if isScalar n then .ok (Char.ofNat n, 6)
    else
      match surrogatePair? n (t.drop 6) with
      | some c => .ok (c, 12)
      | none => .error (.invalidUnicodeEscape (String.ofList (t.take 6)))

/-- The character of an escape with a number in braces, and the length of the escape, which is limited;
`length` characters have been read and `point` is the number that their digits make. -/
def readBracedEscape (whole : Text) (length point : Nat) : Text → Except SyntaxFault (Char × Nat)
  | [] => .error (.invalidUnicodeEscape (String.ofList whole))
  | c :: rest =>
    let refusal := SyntaxFault.invalidUnicodeEscape (String.ofList (whole.take (length + 1)))
    if length ≥ 12 then .error (.invalidUnicodeEscape (String.ofList (whole.take length)))
    else if c = '\x7d' then
      if length < 4 ∨ !isScalar point then .error refusal else .ok (Char.ofNat point, length + 1)
    else
      match Text.radixDigit? 16 c with
      | some digit => readBracedEscape whole (length + 1) (16 * point + digit) rest
      | none => .error refusal

/-- The character that a letter behind a backslash stands for. -/
def escapedChar? : Char → Option Char
  | '"' => some '"'
  | '\\' => some '\\'
  | '/' => some '/'
  | 'b' => some '\x08'
  | 'f' => some '\x0c'
  | 'n' => some '\n'
  | 'r' => some '\r'
  | 't' => some '\t'
  | _ => none

/-- The character of the escape at the start of a text, and the length of the escape. -/
def readEscape (t : Text) : Except SyntaxFault (Char × Nat) :=
  match t with
  | _ :: 'u' :: '\x7b' :: rest => readBracedEscape t 3 0 rest
  | _ :: 'u' :: _ => readFixedEscape t
  | _ :: c :: _ =>
    match escapedChar? c with
    | some d => .ok (d, 2)
    | none => .error (.invalidEscape (String.ofList (t.take 2)))
  | _ => .error (.invalidEscape (String.ofList t))

/-- The characters of a string up to its closing quote, and the place behind the quote. `start` is the
place of the text, and `skip` of its first characters belong to an escape that has been read. -/
def readChars (start skip : Nat) : Text → Lexed (Text × Nat)
  | [] => .error ⟨start, .unterminatedString⟩
  | c :: rest =>
    match skip with
    -- the characters of an escape are passed over one by one, so that the recursion is on the text
    | skip + 1 => readChars (start + 1) skip rest
    | 0 =>
      if c = '"' then .ok ([], start + 1)
      else if endsLine c then .error ⟨start, .unterminatedString⟩
      else if c = '\\' then
        match readEscape (c :: rest) with
        | .error fault => .error ⟨start, fault⟩
        | .ok (d, length) =>
          (readChars (start + 1) (length - 1) rest).map fun (value, stop) => (d :: value, stop)
      else (readChars (start + 1) 0 rest).map fun (value, stop) => (c :: value, stop)

/-- Lines with characters put in front of the first. -/
def prependToFirst (cs : Text) : List Text → List Text
  | [] => [cs]
  | line :: more => (cs ++ line) :: more

/-- The lines of a block up to its closing quotes, and the place behind the quotes; `start` is the place
of the text. -/
def readBlockLines (start : Nat) : Text → Lexed (List Text × Nat)
  | [] => .error ⟨start, .unterminatedString⟩
  | '"' :: '"' :: '"' :: _ => .ok ([[]], start + 3)
  | '\\' :: '"' :: '"' :: '"' :: rest =>
    (readBlockLines (start + 4) rest).map fun (lines, stop) =>
      (prependToFirst "\"\"\"".toList lines, stop)
  -- a carriage return and its line feed end one line and not two
  | '\r' :: '\n' :: rest =>
    (readBlockLines (start + 2) rest).map fun (lines, stop) => ([] :: lines, stop)
  | c :: rest =>
    (readBlockLines (start + 1) rest).map fun (lines, stop) =>
      (if endsLine c then [] :: lines else prependToFirst [c] lines, stop)

/-- The string or block at the start of a text. -/
def readString (t : Text) : Lexed Lexeme :=
  match t with
  | '"' :: '"' :: '"' :: rest =>
    (readBlockLines 3 rest).map fun (lines, stop) =>
      ⟨.blockString, StringLiteral.blockValue lines, stop⟩
  | _ => (readChars 1 0 (t.drop 1)).map fun (value, stop) => ⟨.string, value, stop⟩

/-! ## All tokens -/

/-- The token that starts with a point. -/
def readDots (t : Text) : Lexed Lexeme :=
  match t with
  | '.' :: '.' :: '.' :: _ => .ok ⟨.spread, [], 3⟩
  | '.' :: '.' :: _ => .error ⟨0, .twoDots⟩
  | _ =>
    match (t.drop 1).takeWhile isDigit with
    | [] => .error ⟨0, .unexpectedCharacter '.'⟩
    | digits => .error ⟨0, .leadingPoint (String.ofList digits)⟩

/-- The token at the start of a text that starts with `c`. -/
def readLexeme (c : Char) (t : Text) : Lexed Lexeme :=
  match punctuatorOf? c with
  | some kind => .ok ⟨kind, [], 1⟩
  | none =>
    if isNameStart c then .ok (readName t)
    else if isDigit c || c == '-' then readNumber t
    else if c = '"' then readString t
    else if c = '.' then readDots t
    else if c = '\'' then .error ⟨0, .singleQuote⟩
    else .error ⟨0, .unexpectedCharacter c⟩

/-- The tokens of a text that starts at a place, as many as `fuel`. -/
def tokensFrom : Nat → Nat → Text → Tokens
  | 0, start, _ => .finish start
  | fuel + 1, start, t =>
    let rest := skipIgnored t
    -- places are counted in the whole text, those of errors as well
    let here := start + (t.length - rest.length)
    match rest with
    | [] => .finish here
    | c :: _ =>
      match readLexeme c rest with
      | .error e => .fault ⟨here + e.start, e.fault⟩
      | .ok lexeme =>
        .next ⟨lexeme.kind, String.ofList lexeme.value, here⟩
          (tokensFrom fuel (here + lexeme.length) (rest.drop lexeme.length))

/-- The tokens of a text; each takes a character at least. -/
def tokens (t : Text) : Tokens := tokensFrom (t.length + 1) 0 t

end SnippetAudit.GraphQL
