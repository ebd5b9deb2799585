import SnippetAudit.Text.Lower

/-!
# Letters without their case

Where an expression ignores letter case, characters are compared by their small forms. A few small letters are kin: they
share a capital, or stand for the same letter, and are taken for each other. Groups are compared by small forms alone.

Code points are numbers here, since expressions may speak of surrogates, which are no characters.

## What this module delivers

- `foldChar`: the small form by which a character is compared;
- `kinGroups`, `kinOf`: small letters that are taken for each other;
- `letterForms`: the code points that a character is found as.
-/

set_option autoImplicit false

namespace SnippetAudit.Regex

/-- The small form by which a character is compared. Here the capital I with a dot is an i, and a sigma is never
final. -/
def foldChar (asciiOnly : Bool) (c : Char) : Char :=
  if asciiOnly then c.toLower
  else if c.toNat = 0x130 then 'i'
  else if c.toNat = 0x3A3 then Char.ofNat 0x3C3
  else Text.lowerChar c

/-- Small letters that are taken for each other. -/
def kinGroups : List (List Nat) :=
  [[105, 305], [115, 383], [181, 956], [837, 953, 8126], [912, 8147], [944, 8163], [946, 976], [949, 1013], [952, 977],
   [954, 1008], [960, 982], [961, 1009], [962, 963], [966, 981], [1074, 7296], [1076, 7297], [1086, 7298],
   [1089, 7299], [1090, 7300, 7301], [1098, 7302], [1123, 7303], [7304, 42571], [7777, 7835], [64261, 64262]]

/-- The small letters that a small letter is taken for, itself included. -/
def kinOf (n : Nat) : List Nat := (kinGroups.find? (·.contains n)).getD [n]

/-- The capitals whose small form is the given one. -/
def capitalsOf (n : Nat) : List Nat :=
  let regular := Text.lowerRuns.filterMap fun (first, last, step, distance) =>
    let capital := ((n : Int) - distance).toNat
    if first ≤ capital && capital ≤ last && (capital - first) % step == 0 then some capital else none
  if n = 105 then 0x130 :: regular
  else if n = 0x3C3 then 0x3A3 :: regular
  else regular

/-- The code points that a character is found as: its own, or those of all its forms where letter case is ignored. -/
def letterForms (ignoreCase asciiOnly : Bool) (c : Char) : List Nat :=
  if !ignoreCase then [c.toNat]
  else if asciiOnly then [c.toLower.toNat, c.toUpper.toNat]
  else (kinOf (foldChar false c).toNat).flatMap fun small => small :: capitalsOf small

/-- A long s, which is kin to the small one, is found as both of them and as the capital. -/
example : letterForms true false (Char.ofNat 383) = [115, 83, 383] := by decide +kernel

end SnippetAudit.Regex
