/-!
# Binary floating-point numbers

The numbers of the 64-bit binary format: a sign, a whole mantissa below 2^53 and a power of two from
-1074 to 971, the two infinities, and one not-a-number. All arithmetic here is exact on ratios of whole
numbers; a result is rounded once, to the nearest number of the format, a tie to the even mantissa.

## What this module delivers

- `Binary64`: the numbers, each finite one in its one form with a mantissa as large as it may be;
- `ofRatio`, `ofInt`: the nearest number to a ratio and to a whole number;
- `ratio?`: the exact value of a finite number;
- `negate`, `divide`: sign change and correctly rounded division;
- `compareTo`: the order of the extended line, undefined at not-a-number;
- `isWhole`: a finite number with a whole value.
-/

set_option autoImplicit false

namespace SnippetAudit

/-- A number of the 64-bit binary format. A finite number is `mantissa * 2 ^ exponent`, negative or
not; zero has a sign as well. -/
inductive Binary64 where
  | nan
  | infinite (negative : Bool)
  | finite (negative : Bool) (mantissa : Nat) (exponent : Int)
  deriving Repr, DecidableEq

namespace Binary64

/-- The exponent of the least positive number. -/
def minExponent : Int := -1074

/-- The exponent of the greatest finite number. -/
def maxExponent : Int := 971

/-- The number of bits of a mantissa. -/
def precision : Nat := 53

/-- Positive or negative zero. -/
def zero (negative : Bool) : Binary64 := .finite negative 0 minExponent

/-- The power `2 ^ e` as a ratio. -/
def twoPower (e : Int) : Nat × Nat :=
  if 0 ≤ e then (Nat.pow 2 e.toNat, 1) else (1, Nat.pow 2 (-e).toNat)

/-- The greatest `e` with `2 ^ e ≤ num / den`, for positive `num` and `den`. -/
def floorLog2 (num den : Nat) : Int :=
  let guess : Int := (num.log2 : Int) - (den.log2 : Int)
  let (up, down) := twoPower guess
  if den * up ≤ num * down then guess else guess - 1

/-- The quotient of two whole numbers, rounded to the nearest whole number, a tie to the even one. -/
def roundHalfEven (num den : Nat) : Nat :=
  let quotient := num / den
  let twice := 2 * (num % den)
  if twice < den ∨ (twice = den ∧ quotient % 2 = 0) then quotient else quotient + 1

/-- The number nearest to `num / den`, with the given sign; `den` is positive. -/
def ofRatio (negative : Bool) (num den : Nat) : Binary64 :=
  if num = 0 then zero negative
  else
    -- the mantissa takes 53 bits where the exponent allows it; below the least exponent it takes fewer
    let exponent := max (floorLog2 num den - 52) minExponent
    let (up, down) := twoPower exponent
    let mantissa := roundHalfEven (num * down) (den * up)
    -- rounding up may need one bit more
    let (mantissa, exponent) :=
      if mantissa = Nat.pow 2 precision then (Nat.pow 2 52, exponent + 1) else (mantissa, exponent)
    if maxExponent < exponent then .infinite negative else .finite negative mantissa exponent

/-- The number nearest to a whole number. -/
def ofInt (n : Int) : Binary64 := ofRatio (n < 0) n.natAbs 1

/-- The exact value of a finite number, as a signed numerator over a positive denominator. -/
def ratio? : Binary64 → Option (Int × Nat)
  | .finite negative mantissa exponent =>
    let (up, down) := twoPower exponent
    let num : Int := (mantissa * up : Nat)
    some (if negative then -num else num, down)
  | _ => none

/-- The number with the other sign. -/
def negate : Binary64 → Binary64
  | .nan => .nan
  | .infinite negative => .infinite !negative
  | .finite negative mantissa exponent => .finite (!negative) mantissa exponent

/-- The sign of a number; not-a-number counts as positive. -/
def isNegative : Binary64 → Bool
  | .nan => false
  | .infinite negative => negative
  | .finite negative _ _ => negative

/-- The value is finite and whole. -/
def isWhole (x : Binary64) : Bool :=
  match x.ratio? with
  | some (num, den) => num % (den : Int) == 0
  | none => false

/-- The quotient of two numbers, rounded to the nearest; a zero divisor gives an infinity. -/
def divide (x y : Binary64) : Binary64 :=
  let negative := x.isNegative != y.isNegative
  match x.ratio?, y.ratio? with
  | some (xNum, xDen), some (yNum, yDen) =>
    if yNum = 0 then (if xNum = 0 then .nan else .infinite negative)
    else ofRatio negative (xNum.natAbs * yDen) (xDen * yNum.natAbs)
  -- one of the two has no exact value and is an infinity or not a number
  | some _, none => if y = .nan then .nan else zero negative
  | none, some _ => if x = .nan then .nan else .infinite negative
  | none, none => .nan

/-- The order of two ratios with positive denominators. -/
def compareRatio (x y : Int × Nat) : Ordering :=
  compare (x.1 * y.2) (y.1 * x.2)

/-- Where a number stands on the line against a ratio with positive denominator. -/
def compareToRatio (x : Binary64) (ratio : Int × Nat) : Option Ordering :=
  match x with
  | .nan => none
  | .infinite negative => some (if negative then .lt else .gt)
  | x => x.ratio?.map (compareRatio · ratio)

/-- The order of two numbers on the extended line; none with not-a-number. -/
def compareTo (x y : Binary64) : Option Ordering :=
  match y with
  | .nan => none
  | .infinite negative =>
    match x with
    | .nan => none
    | .infinite other =>
      some (if other == negative then .eq else if other then .lt else .gt)
    | _ => some (if negative then .gt else .lt)
  | y => y.ratio?.bind x.compareToRatio

end Binary64

end SnippetAudit
