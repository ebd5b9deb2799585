import SnippetAudit.Numeric.Binary64

/-!
# Shortest decimal text

A floating-point number is written with the fewest decimal digits that read back as the same number,
and among those with the digits nearest to it. For each count of digits only the two neighbours of the
value on that decimal grid are tried.

## What this module delivers

- `readDecimal`: the number nearest to `digits * 10 ^ exponent`;
- `shortestDigits`: the digits and the decimal exponent of the first of them;
- `Layout`: where positional notation ends and how an exponent is written;
- `Binary64.text`: the text of a number in the layout used in all messages.
-/

set_option autoImplicit false

namespace SnippetAudit.Binary64

/-- The power `10 ^ e` as a ratio. -/
def tenPower (e : Int) : Nat × Nat :=
  if 0 ≤ e then (Nat.pow 10 e.toNat, 1) else (1, Nat.pow 10 (-e).toNat)

/-- The number nearest to `digits * 10 ^ exponent`. Values beyond the format are not computed: from
`10 ^ 400` on everything is infinite, and below `10 ^ -400` everything is zero. -/
def readDecimal (negative : Bool) (digits : Nat) (exponent : Int) : Binary64 :=
  if digits = 0 then zero negative
  else
    let places : Int := (Nat.toDigits 10 digits).length
    -- the format ends near 1e308 and 1e-324, so both bounds leave room for every finite number
    if exponent + places > 400 then .infinite negative
    else if exponent + places < -400 then zero negative
    else
      let (up, down) := tenPower exponent
      ofRatio negative (digits * up) down

/-- The greatest `e` with `10 ^ e ≤ num / den`, for positive `num` and `den`, found by counting down
from `start`. -/
def floorLog10From (num den : Nat) (start : Int) : Nat → Int
  | 0 => start
  | fuel + 1 =>
    let (up, down) := tenPower start
    if den * up ≤ num * down then start else floorLog10From num den (start - 1) fuel

/-- The greatest `e` with `10 ^ e ≤ num / den`, for positive `num` and `den`. -/
def floorLog10 (num den : Nat) : Int :=
  let places (n : Nat) : Int := (Nat.toDigits 10 n).length
  -- the difference of the digit counts is the logarithm or one too many
  floorLog10From num den (places num - places den) 2

/-- The neighbours of `num / den` on the grid of multiples of `10 ^ unit` that read back as `x`, the
nearer one first; of two equally near ones the even one is first. -/
def gridHits (x : Binary64) (num den : Nat) (unit : Int) : List Nat :=
  let (up, down) := tenPower unit
  let top := num * down
  let bottom := den * up
  let floor := top / bottom
  let nearest := roundHalfEven top bottom
  let other := if nearest = floor then floor + 1 else floor
  [nearest, other].filter fun digits => readDecimal false digits unit == x

/-- The shortest digits of `num / den`, tried with `places` digits and more; `magnitude` is the
decimal exponent of the value. -/
def shortestFrom (x : Binary64) (num den : Nat) (magnitude : Int) (places : Nat) : Nat → Nat × Int
  | 0 => (0, 0)
  | fuel + 1 =>
    let unit := magnitude - ((places : Int) - 1)
    match gridHits x num den unit with
    | digits :: _ => (digits, unit)
    | [] => shortestFrom x num den magnitude (places + 1) fuel

/-- The digits and the decimal exponent of the shortest decimal that reads back as a positive finite
number. Seventeen digits always suffice. -/
def shortestDigits (mantissa : Nat) (exponent : Int) : Nat × Int :=
  let (up, down) := twoPower exponent
  let num := mantissa * up
  shortestFrom (.finite false mantissa exponent) num down (floorLog10 num down) 1 17

/-- How a number is laid out. -/
structure Layout where
  /-- The least decimal exponent written positionally. -/
  leastPositional : Int
  /-- The least decimal exponent above it written with an exponent again. -/
  exponentialFrom : Int
  /-- The least count of exponent digits. -/
  exponentDigits : Nat

/-- Numbers from `1e-4` to below `1e16` are positional and keep a decimal point; an exponent has a
sign and at least two digits. -/
def layout : Layout := ⟨-4, 16, 2⟩

/-- An exponent with its sign, filled up with zeros. -/
def exponentText (layout : Layout) (e : Int) : String :=
  let digits := toString e.natAbs
  let zeros := String.ofList (List.replicate (layout.exponentDigits - digits.length) '0')
  (if e < 0 then "e-" else "e+") ++ zeros ++ digits

/-- Digits without trailing zeros, with the exponent raised for each one dropped. -/
def dropTrailingZeros (digits : List Char) : List Char :=
  (digits.reverse.dropWhile (· == '0')).reverse

/-- Digits `d₁d₂…` with the value `d₁.d₂… * 10 ^ magnitude`, laid out. -/
def layoutText (layout : Layout) (digits : List Char) (magnitude : Int) : String :=
  if magnitude < layout.leastPositional ∨ layout.exponentialFrom ≤ magnitude then
    let fraction := digits.drop 1
    let point := if fraction.isEmpty then [] else '.' :: fraction
    String.ofList (digits.take 1 ++ point) ++ exponentText layout magnitude
  else if magnitude < 0 then
    String.ofList ("0.".toList ++ List.replicate ((-magnitude).toNat - 1) '0' ++ digits)
  else
    let whole := magnitude.toNat + 1
    let padded := digits ++ List.replicate (whole - digits.length) '0'
    let fraction := padded.drop whole
    String.ofList (padded.take whole ++ '.' :: (if fraction.isEmpty then ['0'] else fraction))

/-- The text of a number. -/
def text : Binary64 → String
  | .nan => "nan"
  | .infinite negative => if negative then "-inf" else "inf"
  | .finite negative mantissa exponent =>
    let sign := if negative then "-" else ""
    if mantissa = 0 then sign ++ "0.0"
    else
      let (digits, unit) := shortestDigits mantissa exponent
      let all := Nat.toDigits 10 digits
      let magnitude := unit + (all.length : Int) - 1
      sign ++ layoutText layout (dropTrailingZeros all) magnitude

end SnippetAudit.Binary64
