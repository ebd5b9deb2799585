import SnippetAudit.Data.Value
import SnippetAudit.Text.Digit

/-!
# Reading JSON

A JSON text is one value with white space around it. Members keep the order in which they are written,
and a name written twice keeps its first place and its last value. A number with a fraction or an
exponent is a floating-point number, every other one a whole number; the names of not-a-number and the
infinities are read as well. The first thing that does not fit stops the reading.

## What this module delivers

- `JsonError`: what did not fit, and where, with its wording;
- `Json.read`: the value of a text.
-/

set_option autoImplicit false

namespace SnippetAudit

/-- What does not fit in a JSON text. -/
inductive JsonFault where
  | byteOrderMark
  | expectedValue
  | expectedName
  | expectedColon
  | expectedComma
  | unterminatedString
  | controlCharacter
  | badEscape
  | badUnicodeEscape
  | extraData
  deriving Repr, DecidableEq

/-- The wording of each fault. -/
def JsonFault.message : JsonFault → String
  | .byteOrderMark => "Unexpected UTF-8 BOM (decode using utf-8-sig)"
  | .expectedValue => "Expecting value"
  | .expectedName => "Expecting property name enclosed in double quotes"
  | .expectedColon => "Expecting ':' delimiter"
  | .expectedComma => "Expecting ',' delimiter"
  | .unterminatedString => "Unterminated string starting at"
  | .controlCharacter => "Invalid control character at"
  | .badEscape => "Invalid \\escape"
  | .badUnicodeEscape => "Invalid \\uXXXX escape"
  | .extraData => "Extra data"

/-- A fault and its place: the line and the column counted from one, the position from zero. -/
structure JsonError where
  fault : JsonFault
  line : Nat
  column : Nat
  position : Nat
  deriving Repr, DecidableEq

/-- The wording of an error with its place. -/
def JsonError.message (e : JsonError) : String :=
  e.fault.message ++ ": line " ++ toString e.line ++ " column " ++ toString e.column ++ " (char " ++
    toString e.position ++ ")"

namespace Json

/-- A fault and how many characters are left from its place on. -/
structure Stop where
  fault : JsonFault
  left : Nat

/-- A value read, with the text behind it. -/
abbrev Reading (α : Type) := Except Stop (α × Text)

/-- Stops at the front of `rest`. -/
def stop {α : Type} (fault : JsonFault) (rest : Text) : Reading α :=
  .error ⟨fault, rest.length⟩

/-- White space between the parts of a JSON text. -/
def isSpace (c : Char) : Bool := c == ' ' || c == '\t' || c == '\n' || c == '\r'

/-- The text behind leading white space. -/
def skipSpace (t : Text) : Text := t.dropWhile isSpace

/-- The character that a one-letter escape stands for. -/
def escaped? : Char → Option Char
  | '"' => some '"'
  | '\\' => some '\\'
  | '/' => some '/'
  | 'b' => some (Char.ofNat 8)
  | 'f' => some (Char.ofNat 12)
  | 'n' => some '\n'
  | 'r' => some '\r'
  | 't' => some '\t'
  | _ => none

/-- The value of the four hexadecimal digits that a text starts with. -/
def hexUnit? (t : Text) : Option (Nat × Text) :=
  -- the digits must not end the text, as the string must still be closed
  if t.length < 5 then none
  else ((t.take 4).mapM (Text.radixDigit? 16)).map fun digits => (Text.digitsValue 16 digits, t.drop 4)

/-- A first half of a surrogate pair. -/
def isHighHalf (unit : Nat) : Bool := 0xD800 ≤ unit && unit < 0xDC00

/-- A second half of a surrogate pair. -/
def isLowHalf (unit : Nat) : Bool := 0xDC00 ≤ unit && unit < 0xE000

/-- The character of a surrogate pair. -/
def joinHalves (high low : Nat) : Char :=
  Char.ofNat (0x10000 + (high - 0xD800) * 0x400 + (low - 0xDC00))

/-- The character that a numeric escape stands for, its digits at the front of the text. Two escapes
that are the halves of one character stand for it; a half alone is replaced. -/
def unicodeEscape? (t : Text) : Option (Char × Text) :=
  match hexUnit? t with
  | none => none
  | some (unit, rest) =>
    let alone :=
      if isHighHalf unit || isLowHalf unit then Char.ofNat 0xFFFD else Char.ofNat unit
    match rest with
    | '\\' :: 'u' :: more =>
      match hexUnit? more with
      | some (low, after) =>
        -- the second escape is read again unless it is the other half of the first
        if isHighHalf unit && isLowHalf low then some (joinHalves unit low, after)
        else some (alone, rest)
      | none => some (alone, rest)
    | _ => some (alone, rest)

/-- Reads the characters of a string up to its closing quote; `opening` is the number of characters
left at its opening quote, `done` holds what is read, reversed. -/
def readString (opening : Nat) : Nat → Text → Text → Reading String
  | 0, _, _ => .error ⟨.unterminatedString, opening⟩
  | fuel + 1, done, t =>
    match t with
    | [] => .error ⟨.unterminatedString, opening⟩
    | '"' :: rest => .ok (String.ofList done.reverse, rest)
    | '\\' :: [] => .error ⟨.unterminatedString, opening⟩
    | '\\' :: 'u' :: digits =>
      match unicodeEscape? digits with
      | some (c, rest) => readString opening fuel (c :: done) rest
      | none => stop .badUnicodeEscape ('u' :: digits)
    | '\\' :: letter :: rest =>
      match escaped? letter with
      | some c => readString opening fuel (c :: done) rest
      | none => stop .badEscape t
    | c :: rest =>
      if c.toNat < 0x20 then stop .controlCharacter t
      else readString opening fuel (c :: done) rest

/-- The fraction a text starts with: a point and at least one digit. -/
def takeFraction (t : Text) : Text × Text :=
  match t with
  | '.' :: rest =>
    if (rest.takeWhile Char.isDigit).isEmpty then ([], t)
    else (rest.takeWhile Char.isDigit, rest.dropWhile Char.isDigit)
  | _ => ([], t)

/-- The exponent a text starts with: its mark, an optional sign and at least one digit. -/
def takeExponent (t : Text) : Option Int × Text :=
  match t with
  | mark :: rest =>
    if mark = 'e' ∨ mark = 'E' then
      let (negative, digits) :=
        match rest with
        | '-' :: more => (true, more)
        | '+' :: more => (false, more)
        | more => (false, more)
      let taken := digits.takeWhile Char.isDigit
      if taken.isEmpty then (none, t)
      else
        let n : Int := Text.digitsValue 10 (taken.filterMap (Text.radixDigit? 10))
        (some (if negative then -n else n), digits.dropWhile Char.isDigit)
    else (none, t)
  | [] => (none, t)

/-- Reads a number without sign; `start` is the text from the number on. -/
def readMagnitude (start : Text) (negative : Bool) (t : Text) : Reading Value :=
  let digits :=
    match t with
    -- a zero ends the whole part, so digits behind it are data too much
    | '0' :: _ => ['0']
    | other => other.takeWhile Char.isDigit
  if digits.isEmpty then stop .expectedValue start
  else
    let (fraction, afterFraction) := takeFraction (t.drop digits.length)
    let (exponent, rest) := takeExponent afterFraction
    let value (text : Text) : Nat := Text.digitsValue 10 (text.filterMap (Text.radixDigit? 10))
    if fraction.isEmpty ∧ exponent.isNone then
      let n : Int := value digits
      .ok (.int (if negative then -n else n), rest)
    else
      .ok (.float (Binary64.readDecimal negative (value (digits ++ fraction))
        (exponent.getD 0 - (fraction.length : Int))), rest)

/-- The names that stand for values, each with its value. -/
def namedValues : List (Text × Value) :=
  [("null".toList, .null), ("true".toList, .bool true), ("false".toList, .bool false),
    ("NaN".toList, .float .nan), ("Infinity".toList, .float (.infinite false)),
    ("-Infinity".toList, .float (.infinite true))]

/-- Reads a value that is no string, list or object. -/
def readPlain (t : Text) : Reading Value :=
  -- the name of the negative infinity is tried before the sign of a number
  match namedValues.find? fun (name, _) => name.isPrefixOf t with
  | some (name, value) => .ok (value, t.drop name.length)
  | none =>
    match t with
    | '-' :: rest => readMagnitude t true rest
    | other => readMagnitude t false other

mutual

/-- Reads a value at the front of a text. -/
def readValue : Nat → Text → Reading Value
  | 0, t => stop .expectedValue t
  | fuel + 1, t =>
    match t with
    | '"' :: rest => (readString t.length t.length [] rest).map fun (s, more) => (.str s, more)
    | '[' :: rest =>
      match skipSpace rest with
      | ']' :: more => .ok (.list [], more)
      | first => (readItems fuel first).map fun (items, more) => (.list items, more)
    | '\x7b' :: rest =>
      match skipSpace rest with
      | '\x7d' :: more => .ok (.object [], more)
      | first => (readMembers fuel first).map fun (pairs, more) => (.object (Members.ofPairs pairs), more)
    | other => readPlain other

/-- Reads the items of a list up to its end, at least one. -/
def readItems : Nat → Text → Except Stop (List Value × Text)
  | 0, t => stop .expectedValue t
  | fuel + 1, t => do
    let (item, rest) ← readValue fuel t
    match skipSpace rest with
    | ']' :: more => .ok ([item], more)
    | ',' :: more =>
      let (items, after) ← readItems fuel (skipSpace more)
      .ok (item :: items, after)
    | other => stop .expectedComma other

/-- Reads the members of an object up to its end, at least one. -/
def readMembers : Nat → Text → Except Stop (List (String × Value) × Text)
  | 0, t => stop .expectedName t
  | fuel + 1, t =>
    match t with
    | '"' :: rest => do
      let (name, afterName) ← readString t.length t.length [] rest
      match skipSpace afterName with
      | ':' :: more =>
        let (value, afterValue) ← readValue fuel (skipSpace more)
        match skipSpace afterValue with
        | '\x7d' :: after => .ok ([(name, value)], after)
        | ',' :: after =>
          let (members, last) ← readMembers fuel (skipSpace after)
          .ok ((name, value) :: members, last)
        | other => stop .expectedComma other
      | other => stop .expectedColon other
    | other => stop .expectedName other

end

/-- The place of a stop in the whole text. -/
def locate (t : Text) (s : Stop) : JsonError :=
  let position := t.length - s.left
  let before := t.take position
  ⟨s.fault, before.count '\n' + 1, (before.reverse.takeWhile (· != '\n')).length + 1, position⟩

/-- The value of a JSON text. -/
def read (t : Text) : Except JsonError Value :=
  let reading : Except Stop (Value × Text) :=
    if t.head? = some (Char.ofNat 0xFEFF) then stop .byteOrderMark t
    else do
      let (value, rest) ← readValue (t.length + 1) (skipSpace t)
      match skipSpace rest with
      | [] => .ok (value, [])
      | other => stop .extraData other
  match reading with
  | .ok (value, _) => .ok value
  | .error s => .error (locate t s)

end Json

end SnippetAudit
