import SnippetAudit.Numeric.Shortest
import SnippetAudit.Text.Digit

/-!
# Numerals

A numeral is a whole number in base ten, sixteen, eight or two, or a decimal number with a point or an
exponent, or one of the names of infinity and not-a-number. Underscores are ignored everywhere. A whole
number keeps its exact value; every other numeral stands for the nearest floating-point number.

## What this module delivers

- `Number`: a whole or a floating-point number;
- `readInteger?`: whole numbers, where a leading zero announces a base;
- `readDecimal?`: decimal numbers, with any number of leading zeros;
- `Number.read?`: either of them.
-/

set_option autoImplicit false

namespace SnippetAudit

/-- A whole number of any size or a floating-point number. -/
inductive Number where
  | int (n : Int)
  | float (x : Binary64)
  deriving Repr, DecidableEq

/-- The number with the other sign. -/
def Number.negate : Number → Number
  | .int n => .int (-n)
  | .float x => .float x.negate

namespace Numeral

open Text

/-- Blanks that may surround a numeral: the white space of ASCII without the four separators, and
every blank beyond ASCII. -/
def isPadding (c : Char) : Bool :=
  if c.toNat < 128 then (9 ≤ c.toNat && c.toNat ≤ 13) || c == ' ' else isBlank c

/-- The text with the decimal digits of every script written in ASCII. -/
def asciiDigits (t : Text) : Text :=
  t.map fun c =>
    match digitValue? c with
    | some n => Char.ofNat ('0'.toNat + n)
    | none => c

/-- The text without the padding at both ends, its digits in ASCII. -/
def unpad (t : Text) : Text := asciiDigits (dropEndWhile isPadding (t.dropWhile isPadding))

/-- The sign a numeral starts with, true for minus, and what follows it. -/
def splitSign : Text → Bool × Text
  | '-' :: rest => (true, rest)
  | '+' :: rest => (false, rest)
  | t => (false, t)

/-- The value of a text of digits in base `radix`, if all of them are such digits. -/
def readDigits? (radix : Nat) (t : Text) : Option Nat :=
  (t.mapM (radixDigit? radix)).map (digitsValue radix)

/-- The greatest number of decimal digits of a whole number. -/
def maxDecimalDigits : Nat := 4300

/-- The base that a mark behind a leading zero announces. -/
def announcedRadix? (mark : Char) : Option Nat :=
  if mark = 'x' ∨ mark = 'X' then some 16
  else if mark = 'o' ∨ mark = 'O' then some 8
  else if mark = 'b' ∨ mark = 'B' then some 2
  else none

/-- A whole number in base ten: at least one and at most `maxDecimalDigits` digits, the first of them
no zero unless all are zeros. -/
def readPlain? (t : Text) : Option Nat :=
  if t.isEmpty ∨ maxDecimalDigits < t.length then none
  else if t.head? = some '0' ∧ t.any (· != '0') then none
  else readDigits? 10 t

/-- A whole number without sign, in base ten or in an announced base with at least one digit. -/
def readMagnitude? (t : Text) : Option Nat :=
  match t with
  | '0' :: mark :: digits =>
    match announcedRadix? mark with
    | some radix => if digits.isEmpty then none else readDigits? radix digits
    -- a zero in front of other digits is refused there unless all of them are zeros
    | none => readPlain? t
  | t => readPlain? t

/-- A whole number with an optional sign and padding around it. -/
def readInteger? (t : Text) : Option Int :=
  let (negative, magnitude) := splitSign (unpad t)
  (readMagnitude? magnitude).map fun n => if negative then -(n : Int) else (n : Int)

/-- The exponent a text consists of: nothing, or its mark, an optional sign and digits. -/
def readExponent? (t : Text) : Option Int :=
  match t with
  | [] => some 0
  | mark :: rest =>
    let (negative, digits) := splitSign rest
    if (mark = 'e' ∨ mark = 'E') ∧ ¬ digits.isEmpty then
      (readDigits? 10 digits).map fun n => if negative then -(n : Int) else (n : Int)
    else none

/-- A decimal number without sign: digits with an optional point and an optional exponent, or a name
in any letter case. -/
def readUnsigned? (negative : Bool) (t : Text) : Option Binary64 :=
  let name := String.ofList (t.map Char.toLower)
  if name = "inf" ∨ name = "infinity" then some (.infinite negative)
  else if name = "nan" then some .nan
  else
    let whole := t.takeWhile Char.isDigit
    let (fraction, rest) :=
      match t.dropWhile Char.isDigit with
      | '.' :: more => (more.takeWhile Char.isDigit, more.dropWhile Char.isDigit)
      | other => ([], other)
    if whole.isEmpty ∧ fraction.isEmpty then none
    else do
      let digits ← readDigits? 10 (whole ++ fraction)
      let exponent ← readExponent? rest
      -- the digits behind the point lower the exponent
      some (Binary64.readDecimal negative digits (exponent - (fraction.length : Int)))

/-- A decimal number with an optional sign and padding around it. -/
def readDecimal? (t : Text) : Option Binary64 :=
  let (negative, magnitude) := splitSign (unpad t)
  readUnsigned? negative magnitude

end Numeral

/-- The number a numeral stands for; underscores are ignored. -/
def Number.read? (t : Text) : Option Number :=
  let cleaned := t.filter (· != '_')
  match Numeral.readInteger? cleaned with
  | some n => some (.int n)
  | none => (Numeral.readDecimal? cleaned).map .float

end SnippetAudit
